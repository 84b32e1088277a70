import Seance.Ssh.Forward

namespace Seance.Ssh
open Lib

variable {s : Forwarding}

section Reads

theorem at_stage_runs (j : Nat) (stage : RunStage) (i : Nat) :
    (s.at_stage j stage).runs[i]? =
      if i = j then (s.runs[i]?).map (fun run => { run with stage := stage }) else s.runs[i]? := by
  unfold Forwarding.at_stage
  rw [List.getElem?_modify]
  split
  · rename_i h
    rw [if_pos h.symm]
    rfl
  · rename_i h
    rw [if_neg (fun he => h he.symm)]
    exact id_map _

theorem find?_remove_handle (id key : String) :
    (s.registry.remove_handle id).handles.find? key =
      if key = id then none else s.registry.handles.find? key := by
  unfold TunnelRegistry.remove_handle
  rw [Table.find?_delete]
  cases h : s.registry.handles.find? key with
  | none => simp
  | some handle =>
    have hkey := Table.find?_key h
    by_cases hk : key = id
    · simp [hk, hkey.trans hk]
    · rw [if_neg hk, Option.filter_some]
      simp [show handle.id ≠ id from fun he => hk (hkey.symm.trans he)]

theorem release_handles (id key : String) :
    (s.release id).registry.handles.find? key =
      if key = id then none else s.registry.handles.find? key := by
  unfold Forwarding.release
  split
  · exact find?_remove_handle id key
  · rename_i h
    split
    · rename_i hk
      rw [hk, h]
    · rfl

/-- What a handle going out of the map does to the runs. -/
theorem release_runs (id : String) (i : Nat) :
    (s.release id).runs[i]? = (s.runs[i]?).map (fun run =>
      if (s.registry.handles.find? id).map SshPortForwardHandle.cancel_tx = some i
      then { run with cancelled := true } else run) := by
  unfold Forwarding.release
  split
  · rename_i handle h
    rw [h, Option.map_some]
    dsimp only
    rw [List.getElem?_modify]
    simp only [Option.some.injEq]
    rfl
  · rename_i h
    rw [h]
    simp

theorem insert_ok {j : Nat} {request : SshPortForwardRequest}
    (h : s.registry.handles.find? request.id = none) :
    s.insert j request =
      { s with registry := { s.registry with
          handles := s.registry.handles.put ⟨request.id, j⟩ } }.at_stage j .connecting := by
  unfold Forwarding.insert TunnelRegistry.insert_handle TunnelRegistry.has_active_handle
  rw [h]
  rfl

theorem insert_error {j : Nat} {request : SshPortForwardRequest}
    (h : s.registry.handles.find? request.id ≠ none) :
    s.insert j request = s.at_stage j .refused := by
  obtain ⟨handle, hh⟩ := Option.ne_none_iff_exists'.mp h
  unfold Forwarding.insert TunnelRegistry.insert_handle TunnelRegistry.has_active_handle
  rw [hh]
  rfl

end Reads

/-- The two maps agree: a handle in the map is the one of a task that has not been cancelled and
has not cleaned up, and every such task has its handle there. -/
structure Linked (s : Forwarding) : Prop where
  handle : ∀ id handle, s.registry.handles.find? id = some handle →
    ∃ run, s.runs[handle.cancel_tx]? = some run ∧ run.request.id = id ∧
      run.stage.listed = true ∧ run.cancelled = false
  run : ∀ (j : Nat) run, s.runs[j]? = some run → run.stage.listed = true →
    run.cancelled = false → s.registry.handles.find? run.request.id = some ⟨run.request.id, j⟩
  fresh : ∀ (j : Nat) run, s.runs[j]? = some run → run.stage = .checked ∨ run.stage = .entered →
    run.cancelled = false
  connections : ∀ conn ∈ s.connections, ∃ run, s.runs[conn.run]? = some run ∧
    run.stage.spawned = true

section Steps

theorem Linked.new : Linked .new := by
  refine ⟨?_, ?_, ?_, ?_⟩
  · rintro id handle ⟨⟩
  · rintro j run ⟨⟩
  · rintro j run ⟨⟩
  · rintro conn ⟨⟩

/-- Nothing but the snapshots, the writers and the stop calls is changed. -/
theorem Linked.of_eq {t : Forwarding} (h : Linked s) (hh : t.registry.handles = s.registry.handles)
    (hr : t.runs = s.runs) (hc : t.connections = s.connections) : Linked t := by
  refine ⟨?_, ?_, ?_, ?_⟩
  · rw [hh, hr]
    exact h.handle
  · rw [hh, hr]
    exact h.run
  · rw [hr]
    exact h.fresh
  · rw [hr, hc]
    exact h.connections

/-- A run that goes on and neither gets nor loses a handle. -/
theorem Linked.at_stage (h : Linked s) {j : Nat} {run : Run} (hrun : s.runs[j]? = some run)
    {stage : RunStage}
    (hlisted : stage.listed = run.stage.listed ∨ stage.listed = false ∧ run.cancelled = true)
    (hspawned : run.stage.spawned = true → stage.spawned = true)
    (hfresh : stage = .checked ∨ stage = .entered → run.stage = .checked ∨ run.stage = .entered) :
    Linked (s.at_stage j stage) := by
  have hcase : ∀ (i : Nat) run', (s.at_stage j stage).runs[i]? = some run' →
      i = j ∧ run' = { run with stage := stage } ∨ i ≠ j ∧ s.runs[i]? = some run' := by
    intro i run' hi
    rw [at_stage_runs] at hi
    split at hi
    · rename_i hij
      subst hij
      rw [hrun] at hi
      cases hi
      exact .inl ⟨rfl, rfl⟩
    · rename_i hij
      exact .inr ⟨hij, hi⟩
  refine ⟨?_, ?_, ?_, ?_⟩
  · intro id handle hh
    obtain ⟨run', hr, hid, hl, hc⟩ := h.handle id handle hh
    by_cases hij : handle.cancel_tx = j
    · rw [hij, hrun] at hr
      cases hr
      refine ⟨{ run with stage := stage }, ?_, hid, ?_, hc⟩
      · rw [at_stage_runs, if_pos hij, hij, hrun]
        rfl
      · rcases hlisted with he | ⟨_, hcancelled⟩
        · exact he.trans hl
        · rw [hc] at hcancelled
          cases hcancelled
    · refine ⟨run', ?_, hid, hl, hc⟩
      rw [at_stage_runs, if_neg hij]
      exact hr
  · intro i run' hi hl hc
    rcases hcase i run' hi with ⟨rfl, rfl⟩ | ⟨_, hi⟩
    · rcases hlisted with he | ⟨he, _⟩
      · exact h.run i run hrun (he.symm.trans hl) hc
      · rw [he] at hl
        cases hl
    · exact h.run i run' hi hl hc
  · intro i run' hi hst
    rcases hcase i run' hi with ⟨rfl, rfl⟩ | ⟨_, hi⟩
    · exact h.fresh i run hrun (hfresh hst)
    · exact h.fresh i run' hi hst
  · intro conn hconn
    obtain ⟨run', hr, hs⟩ := h.connections conn hconn
    by_cases hij : conn.run = j
    · rw [hij, hrun] at hr
      cases hr
      refine ⟨{ run with stage := stage }, ?_, hspawned hs⟩
      rw [at_stage_runs, if_pos hij, hij, hrun]
      rfl
    · refine ⟨run', ?_, hs⟩
      rw [at_stage_runs, if_neg hij]
      exact hr

theorem Linked.release (h : Linked s) (id : String) : Linked (s.release id) := by
  have hcase : ∀ (i : Nat) run', (s.release id).runs[i]? = some run' → ∃ run,
      s.runs[i]? = some run ∧ run'.request = run.request ∧ run'.stage = run.stage ∧
      (run'.cancelled = false → run' = run ∧
        (s.registry.handles.find? id).map SshPortForwardHandle.cancel_tx ≠ some i) := by
    intro i run' hi
    rw [release_runs, Option.map_eq_some_iff] at hi
    obtain ⟨run, hr, rfl⟩ := hi
    refine ⟨run, hr, ?_⟩
    split
    · exact ⟨rfl, rfl, fun hc => (by cases hc)⟩
    · rename_i hne
      exact ⟨rfl, rfl, fun _ => ⟨rfl, hne⟩⟩
  refine ⟨?_, ?_, ?_, ?_⟩
  · intro key handle hh
    rw [release_handles] at hh
    split at hh
    · cases hh
    · rename_i hk
      obtain ⟨run, hr, hid, hl, hc⟩ := h.handle key handle hh
      refine ⟨run, ?_, hid, hl, hc⟩
      rw [release_runs, hr, Option.map_some, if_neg]
      intro hsame
      obtain ⟨other, ho, he⟩ := Option.map_eq_some_iff.mp hsame
      obtain ⟨run', hr', hid', _⟩ := h.handle id other ho
      rw [he, hr] at hr'
      cases hr'
      exact hk (hid.symm.trans hid')
  · intro i run' hi hl hc
    obtain ⟨run, hr, _, _, hsame⟩ := hcase i run' hi
    obtain ⟨rfl, hne⟩ := hsame hc
    have hfind := h.run i run' hr hl hc
    rw [release_handles, if_neg]
    · exact hfind
    · rintro rfl
      rw [hfind] at hne
      exact hne rfl
  · intro i run' hi hst
    obtain ⟨run, hr, _, hstage, _⟩ := hcase i run' hi
    have hc := h.fresh i run hr (hstage ▸ hst)
    rw [release_runs, hr, Option.map_some, if_neg] at hi
    · cases hi
      exact hc
    · intro hsame
      obtain ⟨other, ho, he⟩ := Option.map_eq_some_iff.mp hsame
      obtain ⟨run₂, hr₂, _, hl, _⟩ := h.handle id other ho
      rw [he, hr] at hr₂
      cases hr₂
      rcases hst with hst | hst <;> rw [← hstage, hst] at hl <;> cases hl
  · intro conn hconn
    have hmem : conn ∈ s.connections := by
      unfold Forwarding.release at hconn
      split at hconn <;> exact hconn
    obtain ⟨run, hr, hs⟩ := h.connections conn hmem
    rw [release_runs, hr]
    refine ⟨_, rfl, ?_⟩
    dsimp only
    split <;> exact hs

/-- A task that has ended and takes a handle out is cancelled then, if it was not before. -/
theorem Linked.released (h : Linked s) {j : Nat} {request : SshPortForwardRequest}
    {result : Except SshError Unit} {cancelled : Bool}
    (hrun : s.runs[j]? = some ⟨request, .ended result, cancelled⟩) :
    (s.release request.id).runs[j]? = some ⟨request, .ended result, true⟩ := by
  rw [release_runs, hrun, Option.map_some]
  split
  · rfl
  · rename_i hne
    have hc : cancelled = true := by
      by_contra hc
      rw [h.run j _ hrun rfl (by simpa using hc)] at hne
      exact hne rfl
    rw [hc]

theorem Linked.remove_handle (h : Linked s) {j : Nat} {request : SshPortForwardRequest}
    {result : Except SshError Unit} {cancelled : Bool}
    (hrun : s.runs[j]? = some ⟨request, .ended result, cancelled⟩) :
    Linked ((s.release request.id).at_stage j (.unlisted result)) :=
  (h.release request.id).at_stage (h.released hrun) (.inr ⟨rfl, rfl⟩) (fun _ => rfl)
    (fun hst => by rcases hst with hst | hst <;> cases hst)

theorem Linked.insert (h : Linked s) {j : Nat} {request : SshPortForwardRequest}
    {cancelled : Bool} (hrun : s.runs[j]? = some ⟨request, .entered, cancelled⟩) :
    Linked (s.insert j request) := by
  by_cases hfree : s.registry.handles.find? request.id = none
  · rw [insert_ok hfree]
    have hc : cancelled = false := h.fresh j _ hrun (.inr rfl)
    subst hc
    have hruns : ∀ i : Nat, ({ s with registry := { s.registry with
        handles := s.registry.handles.put ⟨request.id, j⟩ } }.at_stage j .connecting).runs[i]? =
          if i = j then some ⟨request, .connecting, false⟩ else s.runs[i]? := by
      intro i
      rw [at_stage_runs]
      split
      · rename_i hij
        subst hij
        rw [hrun]
        rfl
      · rfl
    refine ⟨?_, ?_, ?_, ?_⟩
    · intro id handle hh
      rw [hruns]
      replace hh : (s.registry.handles.put ⟨request.id, j⟩).find? id = some handle := hh
      rw [Table.find?_put] at hh
      split at hh
      · rename_i hid
        cases hh
        exact ⟨_, if_pos rfl, hid.symm, rfl, rfl⟩
      · obtain ⟨run, hr, hid, hl, hcancelled⟩ := h.handle id handle hh
        refine ⟨run, ?_, hid, hl, hcancelled⟩
        rw [if_neg]
        · exact hr
        · rintro he
          rw [he, hrun] at hr
          cases hr
          cases hl
    · intro i run hi hl hcancelled
      rw [hruns] at hi
      change (s.registry.handles.put ⟨request.id, j⟩).find? run.request.id = _
      rw [Table.find?_put]
      split at hi
      · rename_i hij
        cases hi
        rw [if_pos rfl, hij]
      · have hfind := h.run i run hi hl hcancelled
        rw [if_neg]
        · exact hfind
        · intro hid
          rw [hid] at hfind
          change s.registry.handles.find? request.id = _ at hfind
          rw [hfree] at hfind
          cases hfind
    · intro i run hi hst
      rw [hruns] at hi
      split at hi
      · cases hi
        rcases hst with hst | hst <;> cases hst
      · exact h.fresh i run hi hst
    · intro conn hconn
      obtain ⟨run, hr, hs⟩ := h.connections conn hconn
      rw [hruns]
      split
      · exact ⟨_, rfl, rfl⟩
      · exact ⟨run, hr, hs⟩
  · rw [insert_error hfree]
    exact h.at_stage hrun (.inl rfl) (fun hs => hs)
      (fun hst => by rcases hst with hst | hst <;> cases hst)

theorem Linked.start (h : Linked s) (request : SshPortForwardRequest) :
    Linked (s.start request) := by
  unfold Forwarding.start
  split
  · exact h
  · have hold : ∀ (i : Nat) run, s.runs[i]? = some run →
        (s.runs ++ [⟨request, .checked, false⟩])[i]? = some run := by
      intro i run hr
      rw [List.getElem?_append_left (List.getElem?_eq_some_iff.mp hr).1]
      exact hr
    have hcase : ∀ (i : Nat) run, (s.runs ++ [⟨request, .checked, false⟩])[i]? = some run →
        s.runs[i]? = some run ∨ run = ⟨request, .checked, false⟩ := by
      intro i run hr
      rw [List.getElem?_append] at hr
      split at hr
      · exact .inl hr
      · exact .inr (List.mem_singleton.mp (List.mem_of_getElem? hr))
    refine ⟨?_, ?_, ?_, ?_⟩
    · intro id handle hh
      obtain ⟨run, hr, hrest⟩ := h.handle id handle hh
      exact ⟨run, hold _ _ hr, hrest⟩
    · intro i run hi hl hc
      rcases hcase i run hi with hi | rfl
      · exact h.run i run hi hl hc
      · cases hl
    · intro i run hi hst
      rcases hcase i run hi with hi | rfl
      · exact h.fresh i run hi hst
      · rfl
    · intro conn hconn
      obtain ⟨run, hr, hs⟩ := h.connections conn hconn
      exact ⟨run, hold _ _ hr, hs⟩

/-- The registry changes in its snapshots only. -/
theorem Linked.update (h : Linked s) {f : TunnelRegistry → TunnelRegistry}
    (hf : (f s.registry).handles = s.registry.handles) : Linked (s.update f) :=
  h.of_eq hf rfl rfl

theorem Linked.at_connection (h : Linked s) (c : Nat) (stage : ConnectionStage) :
    Linked (s.at_connection c stage) := by
  refine ⟨h.handle, h.run, h.fresh, ?_⟩
  intro conn hconn
  obtain ⟨i, hi⟩ := List.mem_iff_getElem?.mp hconn
  unfold Forwarding.at_connection at hi
  rw [List.getElem?_modify, Option.map_eq_map, Option.map_eq_some_iff] at hi
  obtain ⟨old, hold, rfl⟩ := hi
  have hrun := h.connections old (List.mem_of_getElem? hold)
  split <;> exact hrun

/-- A connection event does nothing, or edits the snapshot of its id and moves its connection on. -/
theorem event_cases (s : Forwarding) (c : Nat) (id : String) (stage : ConnectionStage)
    (event : ConnectionEvent) :
    s.event c id stage event = s ∨
      ∃ (f : PortForwardRuntimeSnapshot → PortForwardRuntimeSnapshot)
        (hf : ∀ snapshot, (f snapshot).id = snapshot.id),
        s.event c id stage event = s.update (fun registry => registry.update id f hf) ∨
          stage ≠ .closed ∧ ∃ next : ConnectionStage, (next = .closed → event = .closed) ∧
            s.event c id stage event =
              (s.update (fun registry => registry.update id f hf)).at_connection c next := by
  cases stage with
  | accepted =>
    cases event with
    | opened => exact .inr ⟨_, _, .inr ⟨nofun, .opened, nofun, rfl⟩⟩
    | _ => exact .inl rfl
  | opened =>
    cases event with
    | opened => exact .inl rfl
    | bytes_in bytes => exact .inr ⟨_, _, .inl rfl⟩
    | bytes_out bytes => exact .inr ⟨_, _, .inl rfl⟩
    | error text => exact .inr ⟨_, _, .inr ⟨nofun, .noted, nofun, rfl⟩⟩
    | closed => exact .inr ⟨_, _, .inr ⟨nofun, .closed, fun _ => rfl, rfl⟩⟩
  | noted =>
    cases event with
    | closed => exact .inr ⟨_, _, .inr ⟨nofun, .closed, fun _ => rfl, rfl⟩⟩
    | _ => exact .inl rfl
  | closed => exact .inl rfl

theorem Linked.event (h : Linked s) (c : Nat) (id : String) (stage : ConnectionStage)
    (event : ConnectionEvent) : Linked (s.event c id stage event) := by
  obtain he | ⟨f, hf, he | ⟨_, next, _, he⟩⟩ := event_cases s c id stage event
  · rwa [he]
  · rw [he]
    exact h.update rfl
  · rw [he]
    exact (h.update rfl).at_connection c next

theorem Linked.clean_up (h : Linked s) (id : String) (result : Except SshError Unit) :
    Linked (s.clean_up id result) := by
  unfold Forwarding.clean_up
  split <;> exact h.update rfl

theorem clean_up_runs (id : String) (result : Except SshError Unit) :
    (s.clean_up id result).runs = s.runs := by
  unfold Forwarding.clean_up
  split <;> rfl

theorem Linked.step (h : Linked s) (a : ForwardAct) : Linked (s.step a) := by
  cases a with
  | start request => exact h.start request
  | upsert j =>
    unfold Forwarding.step
    dsimp only
    split
    · rename_i request _ hrun
      have hlisted : RunStage.entered.listed = RunStage.checked.listed := rfl
      have hput : Linked { s.update (.upsert_starting request) with
          writer := Function.update s.writer request.id (some j) } := h.of_eq rfl rfl rfl
      refine hput.at_stage hrun (.inl hlisted) ?_ (fun _ => .inl rfl)
      rintro ⟨⟩
    · exact h
  | insert j =>
    unfold Forwarding.step
    dsimp only
    split
    · rename_i hrun
      exact h.insert hrun
    · exact h
  | connected j assigned_port now =>
    unfold Forwarding.step
    dsimp only
    split
    · rename_i hrun
      refine (h.update rfl).at_stage hrun (.inl rfl) (fun _ => rfl) ?_
      rintro (hst | hst) <;> cases hst
    · exact h
  | stopped j =>
    unfold Forwarding.step
    dsimp only
    split
    · rename_i hrun
      refine h.at_stage hrun (.inl rfl) (fun _ => rfl) ?_
      rintro (hst | hst) <;> cases hst
    · exact h
  | failed j error =>
    unfold Forwarding.step
    dsimp only
    split
    · rename_i stage _ hrun
      split
      · rename_i hrunning
        refine h.at_stage hrun (.inl ?_) (fun _ => rfl) ?_
        · cases stage with
          | connecting => rfl
          | serving => rfl
          | _ => cases hrunning
        · rintro (hst | hst) <;> cases hst
      · exact h
    · exact h
  | remove_handle j =>
    unfold Forwarding.step
    dsimp only
    split
    · rename_i hrun
      exact h.remove_handle hrun
    · exact h
  | clean_up j =>
    unfold Forwarding.step
    dsimp only
    split
    · rename_i hrun
      rw [← clean_up_runs _ _] at hrun
      refine (h.clean_up _ _).at_stage hrun (.inl rfl) (fun _ => rfl) ?_
      rintro (hst | hst) <;> cases hst
    · exact h
  | accept j =>
    unfold Forwarding.step
    dsimp only
    split
    · rename_i hrun
      refine ⟨h.handle, h.run, h.fresh, ?_⟩
      intro conn hconn
      rcases List.mem_append.mp hconn with hconn | hconn
      · exact h.connections conn hconn
      · rw [List.mem_singleton.mp hconn]
        exact ⟨_, hrun, rfl⟩
    · exact h
  | connection c event =>
    unfold Forwarding.step
    dsimp only
    split
    · split
      · exact h.event c _ _ event
      · exact h
    · exact h
  | stop id =>
    unfold Forwarding.step
    dsimp only
    split
    · exact h.release id
    · exact h.of_eq rfl rfl rfl
  | stop_snapshot i =>
    unfold Forwarding.step
    dsimp only
    split
    · exact h.of_eq rfl rfl rfl
    · exact h

theorem Linked.run_acts (h : Linked s) (acts : List ForwardAct) : Linked (s.run acts) := by
  induction acts generalizing s with
  | nil => exact h
  | cons a acts ih => exact ih (h.step a)

/-- With nothing in progress an id has a handle exactly when a task for it is running that has
not been cancelled. -/
theorem Linked.handle_iff_running (h : Linked s) (hq : s.Quiescent) (id : String) :
    s.registry.has_active_handle id = true ↔ ∃ (j : Nat) (run : Run),
      s.runs[j]? = some run ∧ run.request.id = id ∧ run.stage.running = true ∧
        run.cancelled = false := by
  unfold TunnelRegistry.has_active_handle
  rw [Option.isSome_iff_exists]
  constructor
  · rintro ⟨handle, hh⟩
    obtain ⟨run, hr, hid, hl, hc⟩ := h.handle id handle hh
    refine ⟨_, run, hr, hid, ?_, hc⟩
    have hspawned : run.stage.spawned = true := by
      cases hst : run.stage <;> rw [hst] at hl <;> first | rfl | cases hl
    rcases (hq.1 run (List.mem_of_getElem? hr)).2.2 hspawned with hrunning | hfinished
    · exact hrunning
    · rw [hfinished] at hl
      cases hl
  · rintro ⟨j, run, hr, rfl, hrunning, hc⟩
    refine ⟨_, h.run j run hr ?_ hc⟩
    cases hst : run.stage <;> rw [hst] at hrunning <;> first | rfl | cases hrunning

end Steps

end Seance.Ssh
