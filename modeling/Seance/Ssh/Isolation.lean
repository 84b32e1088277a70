import Seance.Lib.Tenancy
import Seance.Ssh.Running

namespace Seance.Ssh
open Lib

/-- A run as a tenant of its id; it is over when its task has cleaned up and no connection of it
is open. -/
def Run.phase (busy : Bool) (run : Run) : Option (Phase × String) :=
  match run.stage with
  | .checked => none
  | .entered => some (.entering, run.request.id)
  | .refused => some (.refused, run.request.id)
  | .finished => some (if busy then .active else .past, run.request.id)
  | _ => some (.active, run.request.id)

namespace Forwarding

def tenancy (s : Forwarding) : Tenancy Nat String where
  phase j := (s.runs[j]?).bind (Run.phase (s.busy j))
  writer := s.writer
  holder id := (s.registry.handles.find? id).map SshPortForwardHandle.cancel_tx

/-- No start call of the id stands between its `upsert_starting` and its `insert_handle`, or the
latter will find a handle. -/
def KeepsOut (s : Forwarding) (id : String) : Prop :=
  s.registry.has_active_handle id = true ∨
    ∀ run ∈ s.runs, run.request.id = id → run.stage ≠ .entered

instance (s : Forwarding) (id : String) : Decidable (s.KeepsOut id) :=
  inferInstanceAs (Decidable (_ ∨ _))

/-- Every task of the id has cleaned up and its connections are closed. -/
def AllOver (s : Forwarding) (id : String) : Prop :=
  ∀ j (h : j < s.runs.length), s.runs[j].request.id = id → s.runs[j].stage.spawned = true →
    s.runs[j].stage = .finished ∧ s.busy j = false

instance (s : Forwarding) (id : String) : Decidable (s.AllOver id) := by
  unfold AllOver
  infer_instance

/-- A handle goes in when the earlier runs of the id are over; and what ends a run does not come
between the two locks of a start call that is going to get its handle in. -/
def InTurn (s : Forwarding) : ForwardAct → Prop
  | .insert j =>
    match s.runs[j]? with
    | some ⟨request, .entered, _⟩ =>
      s.registry.has_active_handle request.id = true ∨ s.AllOver request.id
    | _ => True
  | .clean_up j =>
    match s.runs[j]? with
    | some ⟨request, .unlisted _, _⟩ => s.KeepsOut request.id
    | _ => True
  | .connection c .closed =>
    match s.connections[c]? with
    | some conn =>
      match s.runs[conn.run]? with
      | some run => s.KeepsOut run.request.id
      | none => True
    | none => True
  | _ => True

instance (s : Forwarding) (a : ForwardAct) : Decidable (s.InTurn a) := by
  unfold InTurn
  split
  · split <;> infer_instance
  · split <;> infer_instance
  · split
    · split <;> infer_instance
    · infer_instance
  · infer_instance

def InTurnAlong : Forwarding → List ForwardAct → Prop
  | _, [] => True
  | s, a :: acts => s.InTurn a ∧ InTurnAlong (s.step a) acts

instance InTurnAlong.decidable :
    ∀ (s : Forwarding) (acts : List ForwardAct), Decidable (InTurnAlong s acts)
  | _, [] => isTrue trivial
  | s, a :: acts =>
    have := InTurnAlong.decidable (s.step a) acts
    inferInstanceAs (Decidable (s.InTurn a ∧ InTurnAlong (s.step a) acts))

end Forwarding

variable {s : Forwarding}

section Phases

theorem tenancy_phase {j : Nat} {run : Run} (h : s.runs[j]? = some run) :
    s.tenancy.phase j = run.phase (s.busy j) := by
  change (s.runs[j]?).bind _ = _
  rw [h, Option.bind_some]

theorem tenancy_holder {id : String} {j : Nat} (h : s.tenancy.holder id = some j) :
    ∃ handle, s.registry.handles.find? id = some handle ∧ handle.cancel_tx = j :=
  Option.map_eq_some_iff.mp h

theorem phase_key {run : Run} {busy : Bool} {p : Phase} {id : String}
    (h : run.phase busy = some (p, id)) : run.request.id = id := by
  unfold Run.phase at h
  split at h <;> cases h <;> rfl

theorem phase_of_listed {run : Run} {busy : Bool} (h : run.stage.listed = true) :
    run.phase busy = some (.active, run.request.id) := by
  unfold Run.phase
  cases hst : run.stage <;> rw [hst] at h <;> first | rfl | cases h

/-- A task that is there is active until it is over. -/
theorem phase_of_spawned {run : Run} {busy : Bool} (h : run.stage.spawned = true)
    (hopen : run.stage = .finished → busy = true) :
    run.phase busy = some (.active, run.request.id) := by
  unfold Run.phase
  cases hst : run.stage <;> rw [hst] at h <;> try first | rfl | cases h
  rw [hopen hst]
  rfl

theorem phase_entering {run : Run} {busy : Bool} {id : String}
    (h : run.phase busy = some (.entering, id)) : run.stage = .entered := by
  unfold Run.phase at h
  split at h
  all_goals first | assumption | cases h | (cases busy <;> cases h)

theorem phase_active {run : Run} {busy : Bool} {id : String}
    (h : run.phase busy = some (.active, id)) :
    run.stage.spawned = true ∧ ¬ (run.stage = .finished ∧ busy = false) := by
  unfold Run.phase at h
  cases hst : run.stage with
  | finished =>
    refine ⟨rfl, ?_⟩
    rintro ⟨_, rfl⟩
    rw [hst] at h
    cases h
  | checked =>
    rw [hst] at h
    cases h
  | entered =>
    rw [hst] at h
    cases h
  | refused =>
    rw [hst] at h
    cases h
  | connecting => exact ⟨rfl, by simp⟩
  | serving => exact ⟨rfl, by simp⟩
  | ended result => exact ⟨rfl, by simp⟩
  | unlisted result => exact ⟨rfl, by simp⟩

/-- A run that goes on as a tenant of its id. -/
theorem tenancy_at_stage {j : Nat} {run : Run} (h : s.runs[j]? = some run) (stage : RunStage) :
    (s.at_stage j stage).tenancy.phase =
      Function.update s.tenancy.phase j (({ run with stage := stage } : Run).phase (s.busy j)) := by
  funext i
  rw [Function.update_apply]
  change ((s.at_stage j stage).runs[i]?).bind _ = _
  rw [at_stage_runs]
  split
  · rename_i hij
    subst hij
    rw [h]
    rfl
  · rfl

theorem tenancy_same_stage {j : Nat} {run : Run} (h : s.runs[j]? = some run) {stage : RunStage}
    (hp : ({ run with stage := stage } : Run).phase (s.busy j) = run.phase (s.busy j)) :
    (s.at_stage j stage).tenancy.phase = s.tenancy.phase := by
  rw [tenancy_at_stage h, hp, ← tenancy_phase h, Function.update_eq_self]

theorem tenancy_release (id : String) : (s.release id).tenancy.phase = s.tenancy.phase := by
  funext i
  have hbusy : (s.release id).busy i = s.busy i := by
    unfold Forwarding.busy Forwarding.release
    split <;> rfl
  change ((s.release id).runs[i]?).bind _ = (s.runs[i]?).bind _
  rw [release_runs, hbusy]
  cases s.runs[i]? with
  | none => rfl
  | some run =>
    rw [Option.map_some, Option.bind_some, Option.bind_some]
    split <;> rfl

end Phases

section Busy

theorem busy_iff {j : Nat} : s.busy j = true ↔
    ∃ (c : Nat) (conn : Connection), s.connections[c]? = some conn ∧ conn.run = j ∧
      conn.stage ≠ .closed := by
  unfold Forwarding.busy
  rw [List.any_eq_true]
  constructor
  · rintro ⟨conn, hmem, h⟩
    obtain ⟨c, hc⟩ := List.mem_iff_getElem?.mp hmem
    exact ⟨c, conn, hc, by simpa using h⟩
  · rintro ⟨c, conn, hc, h⟩
    exact ⟨conn, List.mem_of_getElem? hc, by simpa using h⟩

theorem at_connection_get (c : Nat) (stage : ConnectionStage) (i : Nat) :
    (s.at_connection c stage).connections[i]? =
      if i = c then (s.connections[i]?).map (fun conn => { conn with stage := stage })
      else s.connections[i]? := by
  unfold Forwarding.at_connection
  rw [List.getElem?_modify]
  split
  · rename_i h
    rw [if_pos h.symm]
    rfl
  · rename_i h
    rw [if_neg (fun he => h he.symm)]
    exact id_map _

/-- Only the run of the connection can come to rest, and only by a close. -/
theorem busy_at_connection {c : Nat} {conn : Connection} (h : s.connections[c]? = some conn)
    (ho : conn.stage ≠ .closed) (stage : ConnectionStage) (j : Nat)
    (hj : conn.run ≠ j ∨ stage ≠ .closed) :
    (s.at_connection c stage).busy j = s.busy j := by
  rw [Bool.eq_iff_iff, busy_iff, busy_iff]
  constructor
  · rintro ⟨i, conn', hi, hrun, hopen⟩
    rw [at_connection_get] at hi
    split at hi
    · rename_i hic
      subst hic
      rw [h] at hi
      cases hi
      exact ⟨i, conn, h, hrun, ho⟩
    · exact ⟨i, conn', hi, hrun, hopen⟩
  · rintro ⟨i, conn', hi, hrun, hopen⟩
    by_cases hic : i = c
    · subst hic
      rw [h] at hi
      cases hi
      refine ⟨i, { conn with stage := stage }, ?_, hrun, ?_⟩
      · rw [at_connection_get, if_pos rfl, h]
        rfl
      · rcases hj with hne | hne
        · exact absurd hrun hne
        · exact hne
    · refine ⟨i, conn', ?_, hrun, hopen⟩
      rw [at_connection_get, if_neg hic]
      exact hi

theorem busy_accept (j i : Nat) :
    ({ s with connections := s.connections ++ [⟨j, .accepted⟩] } : Forwarding).busy i =
      (s.busy i || decide (j = i)) := by
  simp [Forwarding.busy]

end Busy

section Moves

open Tenancy (Move)

/-- Where neither the runs nor the handles change, nothing moves. -/
theorem move_same {t : Forwarding} (hr : t.runs = s.runs)
    (hh : t.registry.handles = s.registry.handles) (hb : t.connections = s.connections)
    (hw : t.writer = s.writer) : Move s.tenancy t.tenancy := by
  refine .same ?_ hw ?_
  · change (fun j => (t.runs[j]?).bind (Run.phase (t.busy j))) = _
    unfold Forwarding.busy
    rw [hr, hb]
    rfl
  · change (fun id => (t.registry.handles.find? id).map _) = _
    rw [hh]
    rfl

theorem move_start (request : SshPortForwardRequest) :
    Move s.tenancy (s.start request).tenancy := by
  unfold Forwarding.start
  split
  · exact .same rfl rfl rfl
  · refine .same ?_ rfl rfl
    funext j
    change ((s.runs ++ [⟨request, .checked, false⟩])[j]?).bind _ = (s.runs[j]?).bind _
    rw [List.getElem?_append]
    split
    · rfl
    · rename_i hge
      rw [List.getElem?_eq_none (Nat.le_of_not_lt hge)]
      cases hnew : ([⟨request, .checked, false⟩] : List Run)[j - s.runs.length]? with
      | none => rfl
      | some run =>
        rw [List.mem_singleton.mp (List.mem_of_getElem? hnew)]
        rfl

theorem move_insert {j : Nat} {request : SshPortForwardRequest} {cancelled : Bool}
    (hrun : s.runs[j]? = some ⟨request, .entered, cancelled⟩)
    (hturn : s.registry.has_active_handle request.id = true ∨ s.AllOver request.id) :
    Move s.tenancy (s.insert j request).tenancy := by
  have henters : s.tenancy.phase j = some (.entering, request.id) := tenancy_phase hrun
  by_cases hfree : s.registry.handles.find? request.id = none
  · rw [insert_ok hfree]
    have hover : s.AllOver request.id := by
      rcases hturn with hactive | hover
      · rw [TunnelRegistry.has_active_handle, hfree] at hactive
        cases hactive
      · exact hover
    refine .take j request.id henters ?_ ?_ ?_ rfl ?_
    · change (s.registry.handles.find? request.id).map _ = none
      rw [hfree]
      rfl
    · intro i hi
      obtain ⟨run, hr, hphase⟩ := Option.bind_eq_some_iff.mp hi
      obtain ⟨hlt, rfl⟩ := List.getElem?_eq_some_iff.mp hr
      obtain ⟨hspawned, hopen⟩ := phase_active hphase
      exact hopen (hover i hlt (phase_key hphase) hspawned)
    · exact tenancy_at_stage (s := { s with registry := { s.registry with
        handles := s.registry.handles.put ⟨request.id, j⟩ } }) hrun .connecting
    · funext id
      rw [Function.update_apply]
      change ((s.registry.handles.put ⟨request.id, j⟩).find? id).map _ = _
      rw [Table.find?_put]
      split
      · rfl
      · rfl
  · rw [insert_error hfree]
    exact .refuse j request.id henters (tenancy_at_stage hrun .refused) rfl rfl

theorem move_release (id : String) : Move s.tenancy (s.release id).tenancy := by
  refine .release id (tenancy_release id) ?_ ?_
  · change (s.release id).writer = s.writer
    unfold Forwarding.release
    split <;> rfl
  · funext key
    rw [Function.update_apply]
    change ((s.release id).registry.handles.find? key).map _ = _
    rw [release_handles]
    split <;> rfl

theorem keepsOut_alone {id : String} (h : s.KeepsOut id) (hfree : s.tenancy.holder id = none)
    (j : Nat) : s.tenancy.phase j ≠ some (.entering, id) := by
  intro hj
  obtain ⟨run, hr, hphase⟩ := Option.bind_eq_some_iff.mp hj
  rcases h with hactive | hnone
  · unfold TunnelRegistry.has_active_handle at hactive
    rw [Option.map_eq_none_iff.mp hfree] at hactive
    cases hactive
  · exact hnone run (List.mem_of_getElem? hr) (phase_key hphase) (phase_entering hphase)

/-- A run that is not listed any more does not hold its id. -/
theorem Linked.not_holder (h : Linked s) {j : Nat} {run : Run} (hrun : s.runs[j]? = some run)
    (hl : run.stage.listed = false) (id : String) : s.tenancy.holder id ≠ some j := by
  intro hh
  obtain ⟨handle, hfind, rfl⟩ := tenancy_holder hh
  obtain ⟨run', hr, _, hl', _⟩ := h.handle id handle hfind
  rw [hrun] at hr
  cases hr
  rw [hl] at hl'
  cases hl'

theorem move_clean_up (h : Linked s) {j : Nat} {request : SshPortForwardRequest}
    {result : Except SshError Unit} {cancelled : Bool}
    (hrun : s.runs[j]? = some ⟨request, .unlisted result, cancelled⟩)
    (hturn : s.KeepsOut request.id) :
    Move s.tenancy ((s.clean_up request.id result).at_stage j .finished).tenancy := by
  have hsame : (s.clean_up request.id result).tenancy = s.tenancy := by
    unfold Forwarding.clean_up
    split <;> rfl
  have hbusy : (s.clean_up request.id result).busy j = s.busy j := by
    unfold Forwarding.clean_up
    split <;> rfl
  have hrun' := hrun
  rw [← clean_up_runs request.id result] at hrun'
  have hphase := tenancy_at_stage hrun' .finished
  have hwriter : ((s.clean_up request.id result).at_stage j .finished).tenancy.writer =
      s.tenancy.writer := by
    rw [← hsame]
    rfl
  have hholder : ((s.clean_up request.id result).at_stage j .finished).tenancy.holder =
      s.tenancy.holder := by
    rw [← hsame]
    rfl
  have hstays : s.tenancy.phase j = some (.active, request.id) := tenancy_phase hrun
  rw [hsame, hbusy] at hphase
  cases hb : s.busy j with
  | true =>
    refine .same ?_ hwriter hholder
    rw [hphase, hb]
    exact (congrArg (Function.update s.tenancy.phase j) hstays.symm).trans
      (Function.update_eq_self j _)
  | false =>
    rw [hb] at hphase
    exact .leave j request.id hstays (h.not_holder hrun rfl _) (keepsOut_alone hturn) hphase
      hwriter hholder

theorem move_accept {j : Nat} {request : SshPortForwardRequest} {cancelled : Bool}
    (hrun : s.runs[j]? = some ⟨request, .serving, cancelled⟩) :
    Move s.tenancy
      ({ s with connections := s.connections ++ [⟨j, .accepted⟩] } : Forwarding).tenancy := by
  refine .same ?_ rfl rfl
  funext i
  by_cases hij : i = j
  · subst hij
    rw [tenancy_phase hrun]
    exact tenancy_phase (s := { s with connections := s.connections ++ [⟨i, .accepted⟩] }) hrun
  · change (s.runs[i]?).bind _ = (s.runs[i]?).bind _
    rw [busy_accept, decide_eq_false (fun he => hij he.symm), Bool.or_false]

/-- A connection that goes on, in whatever tunnel. -/
theorem move_connection (h : Linked s) {c : Nat} {conn : Connection}
    (hconn : s.connections[c]? = some conn) (ho : conn.stage ≠ .closed) {run : Run}
    (hrun : s.runs[conn.run]? = some run) (stage : ConnectionStage)
    (hturn : stage = .closed → s.KeepsOut run.request.id) :
    Move s.tenancy (s.at_connection c stage).tenancy := by
  have hother : ∀ i, conn.run ≠ i ∨ stage ≠ .closed →
      (s.at_connection c stage).tenancy.phase i = s.tenancy.phase i := by
    intro i hi
    change (s.runs[i]?).bind _ = (s.runs[i]?).bind _
    rw [busy_at_connection hconn ho stage i hi]
  have hbusy : s.busy conn.run = true := busy_iff.mpr ⟨c, conn, hconn, rfl, ho⟩
  obtain ⟨run', hr, hspawned⟩ := h.connections conn (List.mem_of_getElem? hconn)
  rw [hrun] at hr
  cases hr
  have hstays : s.tenancy.phase conn.run = some (.active, run.request.id) := by
    rw [tenancy_phase hrun, hbusy]
    exact phase_of_spawned hspawned (fun _ => rfl)
  by_cases hlast : stage = .closed ∧ run.stage = .finished ∧
      (s.at_connection c stage).busy conn.run = false
  · -- the last connection of a task that has cleaned up
    obtain ⟨hclosed, hfinished, hidle⟩ := hlast
    refine .leave conn.run run.request.id hstays (h.not_holder hrun (by rw [hfinished]; rfl) _)
      (keepsOut_alone (hturn hclosed)) ?_ rfl rfl
    funext i
    rw [Function.update_apply]
    split
    · rename_i hi
      subst hi
      rw [tenancy_phase (s := s.at_connection c stage) hrun, hidle, Run.phase, hfinished]
      rfl
    · rename_i hi
      exact hother i (.inl (fun he => hi he.symm))
  · refine .same ?_ rfl rfl
    funext i
    by_cases hi : conn.run = i ∧ stage = .closed
    · obtain ⟨rfl, hclosed⟩ := hi
      rw [hstays, tenancy_phase (s := s.at_connection c stage) hrun]
      refine phase_of_spawned hspawned (fun hfinished => ?_)
      by_contra hidle
      exact hlast ⟨hclosed, hfinished, by simpa using hidle⟩
    · rw [not_and_or] at hi
      exact hother i hi

theorem move_event (h : Linked s) {c j : Nat} {stage : ConnectionStage}
    (hconn : s.connections[c]? = some ⟨j, stage⟩) {run : Run} (hrun : s.runs[j]? = some run)
    (event : ConnectionEvent) (hturn : event = .closed → s.KeepsOut run.request.id) :
    Move s.tenancy (s.event c run.request.id stage event).tenancy := by
  obtain he | ⟨f, hf, he | ⟨ho, next, hnext, he⟩⟩ := event_cases s c run.request.id stage event
  · rw [he]
    exact .same rfl rfl rfl
  · rw [he]
    exact move_same rfl rfl rfl rfl
  · have hmove := move_connection h hconn ho hrun next (fun hc => hturn (hnext hc))
    have hsame : ((s.update (fun registry => registry.update run.request.id f hf)).at_connection
        c next).tenancy = (s.at_connection c next).tenancy := rfl
    rw [he, hsame]
    exact hmove

/-- Every step taken in turn moves the tenants as it should. -/
theorem move_step (h : Linked s) {a : ForwardAct} (ha : s.InTurn a) :
    Move s.tenancy (s.step a).tenancy := by
  unfold Forwarding.step
  cases a with
  | start request => exact move_start request
  | upsert j =>
    dsimp only
    split
    · rename_i request _ hrun
      refine .enter j request.id (tenancy_phase hrun) ?_ rfl rfl
      exact tenancy_at_stage (s := { s.update (.upsert_starting request) with
        writer := Function.update s.writer request.id (some j) }) hrun .entered
    · exact .same rfl rfl rfl
  | insert j =>
    dsimp only
    split
    · rename_i hrun
      simp only [Forwarding.InTurn, hrun] at ha
      exact move_insert hrun ha
    · exact .same rfl rfl rfl
  | connected j assigned_port now =>
    dsimp only
    split
    · rename_i request _ hrun
      exact .same (tenancy_same_stage (s := s.update _) hrun rfl) rfl rfl
    · exact .same rfl rfl rfl
  | stopped j =>
    dsimp only
    split
    · rename_i hrun
      exact .same (tenancy_same_stage hrun rfl) rfl rfl
    · exact .same rfl rfl rfl
  | failed j error =>
    dsimp only
    split
    · rename_i stage _ hrun
      split
      · rename_i hrunning
        refine .same (tenancy_same_stage hrun ?_) rfl rfl
        cases stage with
        | connecting => rfl
        | serving => rfl
        | _ => cases hrunning
      · exact .same rfl rfl rfl
    · exact .same rfl rfl rfl
  | remove_handle j =>
    dsimp only
    split
    · rename_i request result cancelled hrun
      have hphase : ((s.release request.id).at_stage j (.unlisted result)).tenancy.phase =
          (s.release request.id).tenancy.phase := tenancy_same_stage (h.released hrun) rfl
      have hrelease := move_release (s := s) request.id
      rw [show ((s.release request.id).at_stage j (.unlisted result)).tenancy =
        (s.release request.id).tenancy from congrArg (fun p => Tenancy.mk p _ _) hphase]
      exact hrelease
    · exact .same rfl rfl rfl
  | clean_up j =>
    dsimp only
    split
    · rename_i hrun
      simp only [Forwarding.InTurn, hrun] at ha
      exact move_clean_up h hrun ha
    · exact .same rfl rfl rfl
  | accept j =>
    dsimp only
    split
    · rename_i hrun
      exact move_accept hrun
    · exact .same rfl rfl rfl
  | connection c event =>
    dsimp only
    split
    · rename_i j stage hconn
      split
      · rename_i run hrun
        refine move_event h hconn hrun event ?_
        rintro rfl
        simpa only [Forwarding.InTurn, hconn, hrun] using ha
      · exact .same rfl rfl rfl
    · exact .same rfl rfl rfl
  | stop id =>
    dsimp only
    split
    · exact move_release id
    · exact .same rfl rfl rfl
  | stop_snapshot i =>
    dsimp only
    split
    · exact .same rfl rfl rfl
    · exact .same rfl rfl rfl

end Moves

end Seance.Ssh
