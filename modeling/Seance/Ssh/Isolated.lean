import Seance.Ssh.Isolation

namespace Seance.Ssh
open Lib

/-- The run that takes the step: with its task, or with one of its connections. -/
def Forwarding.author (s : Forwarding) : ForwardAct → Option Nat
  | .connected j _ _ => some j
  | .stopped j => some j
  | .failed j _ => some j
  | .remove_handle j => some j
  | .clean_up j => some j
  | .accept j => some j
  | .connection c _ => (s.connections[c]?).map Connection.run
  | _ => none

/-- A run is neither cancelled nor loses its handle, and the snapshot its start call has put in
is neither removed nor changed. -/
structure Unaffected (s t : Forwarding) (k : Nat) : Prop where
  cancelled : (t.runs[k]?).map Run.cancelled = (s.runs[k]?).map Run.cancelled
  handle : ∀ id, s.registry.handles.find? id = some ⟨id, k⟩ →
    t.registry.handles.find? id = some ⟨id, k⟩
  snapshot : ∀ id, s.writer id = some k →
    t.registry.snapshots.find? id = s.registry.snapshots.find? id

/-- A step that stays with one id and cancels at most the run that holds it. -/
structure Confined (s t : Forwarding) (id : String) : Prop where
  snapshots : ∀ key, key ≠ id →
    t.registry.snapshots.find? key = s.registry.snapshots.find? key
  handles : ∀ key, key ≠ id → t.registry.handles.find? key = s.registry.handles.find? key
  cancelled : ∀ k, s.tenancy.holder id ≠ some k →
    (t.runs[k]?).map Run.cancelled = (s.runs[k]?).map Run.cancelled

variable {s : Forwarding}

section Confined

theorem find?_update_other {registry : TunnelRegistry} {id key : String} (hk : key ≠ id)
    (f : PortForwardRuntimeSnapshot → PortForwardRuntimeSnapshot)
    (hf : ∀ snapshot, (f snapshot).id = snapshot.id) :
    (registry.update id f hf).snapshots.find? key = registry.snapshots.find? key := by
  change (registry.snapshots.update _ f hf).find? key = _
  rw [Table.find?_update]
  cases h : registry.snapshots.find? key with
  | none => rfl
  | some snapshot =>
    have hne : snapshot.id ≠ id := fun he => hk ((Table.find?_key h).symm.trans he)
    simp [hne]

theorem find?_remove_snapshot_other {registry : TunnelRegistry} {id key : String}
    (hk : key ≠ id) :
    (registry.remove_snapshot id).snapshots.find? key = registry.snapshots.find? key := by
  change (registry.snapshots.delete _).find? key = _
  rw [Table.find?_delete]
  cases h : registry.snapshots.find? key with
  | none => rfl
  | some snapshot =>
    have hne : snapshot.id ≠ id := fun he => hk ((Table.find?_key h).symm.trans he)
    simp [hne]

theorem Confined.refl (s : Forwarding) (id : String) : Confined s s id :=
  ⟨fun _ _ => rfl, fun _ _ => rfl, fun _ _ => rfl⟩

theorem Confined.update {id : String} {f : TunnelRegistry → TunnelRegistry}
    (hs : ∀ key, key ≠ id →
      (f s.registry).snapshots.find? key = s.registry.snapshots.find? key)
    (hh : (f s.registry).handles = s.registry.handles) : Confined s (s.update f) id := by
  refine ⟨hs, fun key _ => ?_, fun _ _ => rfl⟩
  change (f s.registry).handles.find? key = _
  rw [hh]

theorem Confined.at_stage {t : Forwarding} {id : String} (h : Confined s t id) (j : Nat)
    (stage : RunStage) : Confined s (t.at_stage j stage) id := by
  refine ⟨h.snapshots, h.handles, fun k hk => ?_⟩
  rw [← h.cancelled k hk, at_stage_runs]
  split
  · rw [Option.map_map]
    rfl
  · rfl

theorem Confined.at_connection {t : Forwarding} {id : String} (h : Confined s t id) (c : Nat)
    (stage : ConnectionStage) : Confined s (t.at_connection c stage) id :=
  ⟨h.snapshots, h.handles, h.cancelled⟩

theorem confined_release (id : String) : Confined s (s.release id) id := by
  refine ⟨?_, ?_, ?_⟩
  · intro key _
    unfold Forwarding.release
    split <;> rfl
  · intro key hk
    rw [release_handles, if_neg hk]
  · intro k hk
    rw [release_runs, Option.map_map]
    congr 1
    funext run
    rw [Function.comp_apply, if_neg]
    exact hk

theorem confined_clean_up (id : String) (result : Except SshError Unit) :
    Confined s (s.clean_up id result) id := by
  unfold Forwarding.clean_up
  split
  · exact .update (fun key hk => find?_remove_snapshot_other hk) rfl
  · exact .update (fun key hk => find?_remove_snapshot_other hk) rfl
  · exact .update (fun key hk => find?_update_other hk _ _) rfl

theorem confined_event (c : Nat) (id : String) (stage : ConnectionStage)
    (event : ConnectionEvent) : Confined s (s.event c id stage event) id := by
  obtain he | ⟨f, hf, he | ⟨_, next, _, he⟩⟩ := event_cases s c id stage event
  · rw [he]
    exact .refl s id
  · rw [he]
    exact .update (fun key hk => find?_update_other hk f hf) rfl
  · rw [he]
    exact (Confined.update (fun key hk => find?_update_other hk f hf) rfl).at_connection c next

/-- What a run does, it does while it is the tenant of its id, and to its id only. -/
theorem authored (h : Linked s) {a : ForwardAct} {j : Nat} (ha : s.author a = some j) :
    s.step a = s ∨
      ∃ id, s.tenancy.phase j = some (.active, id) ∧ Confined s (s.step a) id := by
  unfold Forwarding.step
  cases a with
  | start request => cases ha
  | upsert call => cases ha
  | insert call => cases ha
  | stop id => cases ha
  | stop_snapshot call => cases ha
  | connected i assigned_port now =>
    cases ha
    dsimp only
    split
    · rename_i request _ hrun
      refine .inr ⟨request.id, tenancy_phase hrun, ?_⟩
      exact (Confined.update (fun key hk => find?_update_other hk _ _) rfl).at_stage j _
    · exact .inl rfl
  | stopped i =>
    cases ha
    dsimp only
    split
    · rename_i request hrun
      exact .inr ⟨request.id, tenancy_phase hrun, (Confined.refl s _).at_stage j _⟩
    · exact .inl rfl
  | failed i error =>
    cases ha
    dsimp only
    split
    · rename_i request stage _ hrun
      split
      · rename_i hrunning
        refine .inr ⟨request.id, ?_, (Confined.refl s _).at_stage j _⟩
        rw [tenancy_phase hrun]
        refine phase_of_listed ?_
        cases stage with
        | connecting => rfl
        | serving => rfl
        | _ => cases hrunning
      · exact .inl rfl
    · exact .inl rfl
  | remove_handle i =>
    cases ha
    dsimp only
    split
    · rename_i request _ _ hrun
      exact .inr ⟨request.id, tenancy_phase hrun, (confined_release request.id).at_stage j _⟩
    · exact .inl rfl
  | clean_up i =>
    cases ha
    dsimp only
    split
    · rename_i request result _ hrun
      refine .inr ⟨request.id, tenancy_phase hrun, ?_⟩
      exact (confined_clean_up request.id result).at_stage j _
    · exact .inl rfl
  | accept i =>
    cases ha
    dsimp only
    split
    · rename_i request _ hrun
      exact .inr ⟨request.id, tenancy_phase hrun, fun _ _ => rfl, fun _ _ => rfl, fun _ _ => rfl⟩
    · exact .inl rfl
  | connection c event =>
    obtain ⟨conn, hconn, rfl⟩ := Option.map_eq_some_iff.mp ha
    obtain ⟨run, hrun, hspawned⟩ := h.connections conn (List.mem_of_getElem? hconn)
    by_cases ho : conn.stage = .closed
    · left
      obtain ⟨i, stage⟩ := conn
      dsimp only at ho hrun
      subst ho
      dsimp only
      rw [hconn]
      dsimp only
      rw [hrun]
      rfl
    · right
      refine ⟨run.request.id, ?_, ?_⟩
      · rw [tenancy_phase hrun]
        exact phase_of_spawned hspawned (fun _ => busy_iff.mpr ⟨c, conn, hconn, rfl, ho⟩)
      · dsimp only
        rw [hconn]
        dsimp only
        rw [hrun]
        exact confined_event c _ _ event

end Confined

section Runs

/-- Among tenants that keep apart a step of one run leaves the others alone, but for a start call
that will be refused. -/
theorem unaffected_or_doomed (h : Linked s) (hapart : s.tenancy.Apart) {a : ForwardAct} {j k : Nat}
    (ha : s.author a = some j) (hk : k ≠ j) :
    Unaffected s (s.step a) k ∨ s.tenancy.Doomed k := by
  rcases authored h ha with heq | ⟨id, hactive, hconfined⟩
  · rw [heq]
    exact .inl ⟨rfl, fun _ hh => hh, fun _ _ => rfl⟩
  · have hholder : s.tenancy.holder id ≠ some k :=
      fun hh => hk (hapart.sole k j id (hapart.holds k id hh) hactive)
    by_cases hdoomed : s.tenancy.Doomed k
    · exact .inr hdoomed
    · refine .inl ⟨hconfined.cancelled k hholder, ?_, ?_⟩
      · intro key hh
        rw [hconfined.handles]
        · exact hh
        · rintro rfl
          refine hholder ?_
          change (s.registry.handles.find? key).map _ = _
          rw [hh]
          rfl
      · intro key hw
        refine hconfined.snapshots key ?_
        rintro rfl
        -- the run would be a second tenant of the id, or have written after one
        obtain ⟨⟨p, id⟩, hp⟩ := Option.ne_none_iff_exists'.mp (hapart.begun k key hw)
        obtain rfl := hapart.keyed k key hw p id hp
        cases p with
        | entering => exact hdoomed (.inr ⟨id, j, hp, hactive⟩)
        | active => exact hk (hapart.sole k j id hp hactive)
        | past => exact (hapart.written k id hw hp j).2 hactive
        | refused => exact hdoomed (.inl ⟨id, hp⟩)

theorem not_doomed {k : Nat} {run : Run} (hrun : s.runs[k]? = some run)
    (hspawned : run.stage.spawned = true) : ¬ s.tenancy.Doomed k := by
  have hphase := tenancy_phase hrun
  rintro (⟨id, hp⟩ | ⟨id, m, hp, _⟩)
  · rw [hphase, Run.phase] at hp
    split at hp
    all_goals first | cases hp | skip
    · rename_i hst
      rw [hst] at hspawned
      cases hspawned
    · cases hb : s.busy k <;> rw [hb] at hp <;> cases hp
  · rw [hphase] at hp
    rw [phase_entering hp] at hspawned
    cases hspawned

theorem new_apart : Forwarding.new.tenancy.Apart := by
  constructor
  · rintro i j k ⟨⟩
  · rintro i k ⟨⟩
  · rintro i k ⟨⟩
  · rintro i k ⟨⟩
  · rintro i k ⟨⟩

theorem apart_run {acts : List ForwardAct} (h : Linked s) (hapart : s.tenancy.Apart)
    (hacts : s.InTurnAlong acts) : (s.run acts).tenancy.Apart := by
  induction acts generalizing s with
  | nil => exact hapart
  | cons a acts ih => exact ih (h.step a) (hapart.move (move_step h hacts.1)) hacts.2

theorem doomed_run {acts : List ForwardAct} {k : Nat} (h : Linked s) (hapart : s.tenancy.Apart)
    (hacts : s.InTurnAlong acts) (hk : s.tenancy.Doomed k) : (s.run acts).tenancy.Doomed k := by
  induction acts generalizing s with
  | nil => exact hk
  | cons a acts ih =>
    have hmove := move_step h hacts.1
    exact ih (h.step a) (hapart.move hmove) hacts.2 (hk.move hapart hmove)

theorem inTurnAlong_append {before after : List ForwardAct} :
    s.InTurnAlong (before ++ after) ↔
      s.InTurnAlong before ∧ (s.run before).InTurnAlong after := by
  induction before generalizing s with
  | nil => exact ⟨fun h => ⟨trivial, h⟩, fun h => h.2⟩
  | cons a before ih =>
    rw [List.cons_append, Forwarding.InTurnAlong, ih, Forwarding.InTurnAlong, and_assoc]
    rfl

/-- Every run of start and stop calls, tasks and connections, one critical section at a time.
Where each step comes in turn, no step of a run affects another run, from the `upsert_starting`
of its start call on; and with nothing in progress an id has a handle exactly when a task for it
is running uncancelled, in turn or not. -/
theorem port_forward_runs (acts : List ForwardAct) :
    (Forwarding.new.InTurnAlong acts → ∀ before a after, acts = before ++ a :: after →
      ∀ j, (Forwarding.new.run before).author a = some j → ∀ (k : Nat) (run : Run), k ≠ j →
        (Forwarding.new.run acts).runs[k]? = some run → run.stage.spawned = true →
        Unaffected (Forwarding.new.run before) ((Forwarding.new.run before).step a) k) ∧
    ((Forwarding.new.run acts).Quiescent → ∀ id,
      (Forwarding.new.run acts).registry.has_active_handle id = true ↔
        ∃ (j : Nat) (run : Run), (Forwarding.new.run acts).runs[j]? = some run ∧
          run.request.id = id ∧ run.stage.running = true ∧ run.cancelled = false) := by
  refine ⟨?_, fun hq id => (Linked.new.run_acts acts).handle_iff_running hq id⟩
  rintro hacts before a after rfl j hj k run hk hrun hspawned
  obtain ⟨hbefore, hafter⟩ := inTurnAlong_append.mp hacts
  have hlinked := Linked.new.run_acts before
  have hapart := apart_run Linked.new new_apart hbefore
  rcases unaffected_or_doomed hlinked hapart hj hk with hunaffected | hdoomed
  · exact hunaffected
  · have hend := doomed_run hlinked hapart hafter hdoomed
    have heq : (Forwarding.new.run before).run (a :: after) =
        Forwarding.new.run (before ++ a :: after) := List.foldl_append.symm
    rw [heq] at hend
    exact absurd hend (not_doomed hrun hspawned)

end Runs

section Sample

/-- A tunnel is started, served and stopped. -/
def served : List ForwardAct :=
  [.start web_request, .upsert 0, .insert 0, .connected 0 8080 5, .stop "web", .stopped 0]

def cleaned_up : List ForwardAct := [.remove_handle 0, .clean_up 0]

def restarted : List ForwardAct := [.start web_request, .upsert 1, .insert 1]

example : Forwarding.new.InTurnAlong (served ++ cleaned_up ++ restarted) := by decide

/-- A tunnel started again before its old task has cleaned up: the old task cancels the new run,
takes its handle out and removes its snapshot. -/
theorem old_task_hits_new_run :
    let acts := served ++ restarted ++ cleaned_up
    let before := Forwarding.new.run (served ++ restarted)
    (∃ run, (Forwarding.new.run acts).runs[1]? = some run ∧ run.stage.spawned = true) ∧
    before.author (.remove_handle 0) = some 0 ∧
    before.registry.handles.find? "web" = some ⟨"web", 1⟩ ∧
    (before.step (.remove_handle 0)).registry.handles.find? "web" = none ∧
    ((before.step (.remove_handle 0)).runs[1]?).map Run.cancelled = some true ∧
    before.writer "web" = some 1 ∧
    ((before.step (.remove_handle 0)).registry.snapshots.find? "web").isSome = true ∧
    (Forwarding.new.run acts).registry.snapshots.find? "web" = none := by
  refine ⟨⟨⟨web_request, .connecting, true⟩, ?_, rfl⟩, ?_⟩
  · decide
  · decide

end Sample

end Seance.Ssh
