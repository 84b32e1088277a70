import Seance.Core.Spared
import Seance.Core.Started
import Seance.Lib.Runs

namespace Seance.Core
open Lib Vault Config

namespace AppControllerHandle

/-- The handle of a controller that nobody watches yet. -/
def new (c : AppController) : AppControllerHandle := ⟨c, [], []⟩

variable (env : AppEnv)

/-- Every subscriber whose receiver is still there was last sent the picture as it is. -/
def Current (h : AppControllerHandle) : Prop :=
  ∀ i, (h.board env).alive i = true →
    (h.board env).last i = some (vault_ui_snapshot env h.controller)

/-- Who is still there is subscribed, and was sent the picture as it is. -/
structure Informed (h : AppControllerHandle) : Prop where
  told : (h.board env).Told
  enrolled : (h.board env).Enrolled (fun _ => False)

end AppControllerHandle

/-- Nobody watches, or the operation leaves the picture as it was where it does not send it. -/
def HandleAct.Settled (env : AppEnv) (h : AppControllerHandle) : HandleAct → Prop
  | .operate op w => (∀ i, (h.board env).alive i = false) ∨ op.Whole env w h.controller
  | .subscribe | .drop _ => True

namespace AppControllerHandle

variable {env : AppEnv} {w : HandleWorld} {h : AppControllerHandle} {α : Type}

theorem Informed.current (hi : Informed env h) : h.Current env := by
  intro i halive
  rcases hi.enrolled i halive with hmem | hnever
  · exact hi.told i hmem halive
  · cases hnever

theorem Informed.new (c : AppController) : Informed env (new c) := by
  constructor
  · intro i hmem
    cases hmem
  · intro i halive
    cases halive

theorem Informed.subscribe (hi : Informed env h) : Informed env (h.subscribe_vault_changes env) := by
  have hcreated : (h.board env).create.Enrolled (fun i => i = h.mailboxes.length) :=
    Posted.enrolled_create (fun i halive => (hi.enrolled i halive).imp_right False.elim) rfl
  exact ⟨Posted.told_register (Posted.told_create hi.told) (Posted.reached_create _),
    Posted.enrolled_register hcreated (fun _ hj => .inl hj)⟩

theorem Informed.drop (hi : Informed env h) (i : Nat) : Informed env (h.drop_receiver env i) :=
  ⟨Posted.told_drop hi.told i, Posted.enrolled_drop hi.enrolled i⟩

/-- A controller that gives the same picture. -/
theorem Informed.keep (hi : Informed env h) {c : AppController}
    (hviews : c.views env = h.controller.views env) : Informed env { h with controller := c } := by
  have hboard : AppControllerHandle.board env { h with controller := c } = h.board env := by
    unfold board
    dsimp only
    rw [snapshot_of_views hviews]
  exact ⟨hboard ▸ hi.told, hboard ▸ hi.enrolled⟩

/-- Any controller, once its picture has been sent. -/
theorem Informed.publish (hi : Informed env h) (c : AppController) :
    Informed env (({ h with controller := c } : AppControllerHandle).publish_vault_update env) :=
  ⟨Posted.told_send _, Posted.enrolled_send hi.enrolled _⟩

/-- What an operation that does not send the picture leaves of it. -/
def Quiet (env : AppEnv) (publishes : α → Bool) (x : AppM α) (c : AppController) : Prop :=
  (∀ e d, x.run c = .error e d → d.views env = c.views env) ∧
    ∀ a d, x.run c = .ok a d → publishes a = false → d.views env = c.views env

/-- An operation under the lock ends with its picture sent, or with the controller alone changed. -/
theorem publishing_ends (publishes : α → Bool) (x : AppM α) (h : AppControllerHandle) :
    (∃ a c, x.run h.controller = .ok a c ∧ publishes a = true ∧
      finalState (publishing env publishes x) h =
        ({ h with controller := c } : AppControllerHandle).publish_vault_update env) ∨
    ∃ c, finalState (publishing env publishes x) h = { h with controller := c } ∧
      ((∃ e, x.run h.controller = .error e c) ∨
        ∃ a, x.run h.controller = .ok a c ∧ publishes a = false) := by
  cases hrun : x.run h.controller with
  | ok a c =>
    have hanswer : (publishing env publishes x).run h =
        .ok a (if publishes a then
            ({ h with controller := c } : AppControllerHandle).publish_vault_update env
          else { h with controller := c }) := by
      unfold EStateM.run publishing
      rw [hrun]
    rw [finalState_of_ok hanswer]
    split
    · rename_i hsent
      exact .inl ⟨a, c, rfl, hsent, rfl⟩
    · rename_i hnot
      exact .inr ⟨c, rfl, .inr ⟨a, rfl, Bool.eq_false_iff.mpr hnot⟩⟩
  | error e c =>
    have hanswer : (publishing env publishes x).run h = .error e { h with controller := c } := by
      unfold EStateM.run publishing
      rw [hrun]
    exact .inr ⟨c, finalState_of_error hanswer, .inl ⟨e, rfl⟩⟩

theorem Informed.after_publishing (hi : Informed env h) {publishes : α → Bool} {x : AppM α}
    (hquiet : Quiet env publishes x h.controller) :
    Informed env (finalState (publishing env publishes x) h) := by
  rcases publishing_ends publishes x h with
    ⟨a, c, _, _, hfinal⟩ | ⟨c, hfinal, ⟨e, hfails⟩ | ⟨a, hrun, hnot⟩⟩
  · rw [hfinal]
    exact hi.publish c
  · rw [hfinal]
    exact hi.keep (hquiet.1 e c hfails)
  · rw [hfinal]
    exact hi.keep (hquiet.2 a c hrun hnot)

theorem Informed.after_ok (hi : Informed env h) {x : AppM α}
    (hspared : ∀ e d, x.run h.controller = .error e d → d.views env = h.controller.views env) :
    Informed env (finalState (on_ok env x) h) :=
  hi.after_publishing ⟨hspared, fun _ _ _ hsent => Bool.noConfusion hsent⟩

theorem Informed.after_true (hi : Informed env h) {x : AppM Bool}
    (hspared : ∀ d, (∃ e, x.run h.controller = .error e d) ∨ x.run h.controller = .ok false d →
      d.views env = h.controller.views env) :
    Informed env (finalState (on_true env x) h) := by
  refine hi.after_publishing ⟨fun e d hfails => hspared d (.inl ⟨e, hfails⟩), ?_⟩
  intro a d hrun hfalse
  have hrun : x.run h.controller = .ok false d := hfalse ▸ hrun
  exact hspared d (.inr hrun)

theorem Informed.after_default (hi : Informed env h) {f : String → HandleM α}
    (hf : ∀ vault_id, default_target_vault_id_for_actions env h.controller = some vault_id →
      Informed env (finalState (f vault_id) h)) :
    Informed env (finalState (default_target env >>= f) h) := by
  cases htarget : default_target_vault_id_for_actions env h.controller with
  | some vault_id =>
    have hrun : (default_target env).run h = .ok vault_id h := run_query_of_ok (by rw [htarget])
    unfold finalState
    rw [run_bind_of_ok hrun]
    exact hf vault_id htarget
  | none =>
    have hrun : (default_target env).run h = .error (.message "no vault available to unlock") h :=
      run_query_of_error (by rw [htarget])
    rw [finalState_of_error (run_bind_of_error hrun)]
    exact hi

/-- The same receivers are there. -/
def SameReceivers (env : AppEnv) (h h' : AppControllerHandle) : Prop :=
  ∀ i, (h'.board env).alive i = (h.board env).alive i

instance : Std.Refl (SameReceivers env) := ⟨fun _ _ => rfl⟩

instance : IsTrans AppControllerHandle (SameReceivers env) :=
  ⟨fun _ _ _ h h' i => (h' i).trans (h i)⟩

theorem receivers_publishing (publishes : α → Bool) (x : AppM α) :
    Moves (SameReceivers env) (publishing env publishes x) := by
  intro h i
  rcases publishing_ends publishes x h with ⟨_, _, _, _, hfinal⟩ | ⟨_, hfinal, _⟩
  · rw [hfinal]
    exact Posted.alive_send _ _ i
  · rw [hfinal]
    rfl

end AppControllerHandle

section Steps

open AppControllerHandle

variable {env : AppEnv} {w : HandleWorld} {h : AppControllerHandle}

/-- No operation brings a receiver or takes one away. -/
theorem receivers_after (op : HandleOperation) (h : AppControllerHandle) :
    SameReceivers env h (op.after env w h) := by
  cases op with
  | create_vault passphrase device_name =>
    exact Moves.bind (receivers_publishing _ _) (fun _ => Moves.pure _) h
  | unlock_vault passphrase device_name =>
    exact Moves.bind (Moves.query _) (fun _ => receivers_publishing _ _) h
  | try_unlock_with_device =>
    exact Moves.bind (Moves.query _) (fun _ => receivers_publishing _ _) h
  | lock_vault =>
    refine Moves.bind (R := SameReceivers env) (fun h => refl_of _ h) (fun h' => ?_) h
    split
    · exact Moves.bind (Moves.observe (receivers_publishing _ _)) (fun _ => Moves.pure _)
    · exact Moves.pure _
  | _ => exact receivers_publishing _ _ h

theorem Informed.unwatched {h' : AppControllerHandle} (hsame : SameReceivers env h h')
    (hnone : ∀ i, (h.board env).alive i = false) : Informed env h' := by
  have hgone : ∀ i, (h'.board env).alive i = false := fun i => (hsame i).trans (hnone i)
  refine ⟨Posted.told_of_unwatched (fun i _ => hgone i), fun i halive => ?_⟩
  cases (hgone i).symm.trans halive

theorem informed_after (ideal : IdealAead env.primitives)
    (hostJson : env.primitives.hostJson.Lossless) (hi : Informed env h) (op : HandleOperation)
    (hwhole : op.Whole env w h.controller) : Informed env (op.after env w h) := by
  cases op with
  | create_vault passphrase device_name =>
    change Informed env
      (finalState (AppControllerHandle.create_vault env w passphrase device_name) h)
    unfold AppControllerHandle.create_vault
    rw [finalState_bind_pure]
    exact hi.after_ok (fun _ _ => create_spared hwhole.1 hwhole.2)
  | create_named_vault name passphrase device_name =>
    exact hi.after_ok (fun _ _ => create_spared hwhole.1 hwhole.2)
  | rename_vault vault_id name => exact hi.after_ok (fun _ _ => rename_spared hwhole)
  | open_vault vault_id => exact hi.after_ok (fun _ _ => open_spared hwhole)
  | close_vault vault_id => exact hi.after_ok (fun _ _ => close_spared hwhole)
  | unlock_vault passphrase device_name =>
    exact hi.after_default (fun vault_id htarget =>
      hi.after_ok (fun _ _ => unlock_spared (hwhole vault_id htarget)))
  | unlock_named_vault vault_id passphrase device_name =>
    exact hi.after_ok (fun _ _ => unlock_spared hwhole)
  | try_unlock_with_device =>
    exact hi.after_default (fun vault_id htarget =>
      hi.after_true (fun _ => try_unlock_spared (hwhole vault_id htarget)))
  | try_unlock_vault_with_device vault_id =>
    exact hi.after_true (fun _ => try_unlock_spared hwhole)
  | lock_vault =>
    change Informed env (finalState (AppControllerHandle.lock_vault env) h)
    unfold AppControllerHandle.lock_vault
    rw [finalState_get_bind]
    split
    · rename_i vault_id _
      rw [finalState_bind_pure, finalState_observe]
      exact hi.after_ok (fun _ _ hfails => by rw [lock_spared hfails])
    · exact hi
  | lock_named_vault vault_id =>
    exact hi.after_ok (fun _ _ hfails => by rw [lock_spared hfails])
  | delete_vault_permanently vault_id =>
    exact hi.after_ok (fun _ _ => delete_vault_spared hwhole)
  | set_default_target_vault vault_id =>
    exact hi.after_ok (fun _ _ hfails => by rw [set_default_spared hfails])
  | save_host vault_id host =>
    exact hi.after_ok (fun _ _ => save_host_spared ideal hostJson hwhole)
  | delete_host vault_id id => exact hi.after_true (fun _ => delete_host_spared hwhole)
  | save_port_forward vault_id port_forward =>
    exact hi.after_ok (fun _ _ => save_port_forward_spared hwhole.1 hwhole.2)
  | delete_port_forward vault_id id =>
    exact hi.after_true (fun _ => delete_record_spared (.deletePortForward id) rfl rfl hwhole)
  | save_password_credential vault_id credential =>
    exact hi.after_ok (fun _ _ => save_credential_spared hwhole)
  | delete_password_credential vault_id id =>
    exact hi.after_true (fun _ => delete_record_spared (.deletePasswordCredential id) rfl rfl hwhole)
  | generate_private_key vault_id request =>
    exact hi.after_ok (fun _ _ => scoped_key_spared (.generatePrivateKey request) rfl rfl hwhole)
  | import_private_key vault_id request =>
    exact hi.after_ok (fun _ _ => scoped_key_spared (.importPrivateKey request) rfl rfl hwhole)
  | import_private_keys_from_paths vault_id requests =>
    exact hi.after_ok (fun _ _ => import_spared ideal hwhole.1 hwhole.2)
  | delete_private_key vault_id id =>
    exact hi.after_true (fun _ => delete_record_spared (.deletePrivateKey id) rfl rfl hwhole)

/-- Any turn of the handle, where the picture is sent or stays as it was. -/
theorem informed_step (ideal : IdealAead env.primitives)
    (hostJson : env.primitives.hostJson.Lossless) (hi : Informed env h) {act : HandleAct}
    (hsettled : act.Settled env h) : Informed env (h.step env act) := by
  cases act with
  | operate op w =>
    rcases hsettled with hnone | hwhole
    · exact Informed.unwatched (receivers_after op h) hnone
    · exact informed_after ideal hostJson hi op hwhole
  | subscribe => exact hi.subscribe
  | drop i => exact hi.drop i

/-- In a run in which no turn changes the picture without sending it, every subscriber was last sent
the picture as it is. -/
theorem vault_subscribers_current (ideal : IdealAead env.primitives)
    (hostJson : env.primitives.hostJson.Lossless) (c : AppController) (acts : List HandleAct)
    (hsettled : EveryStep (fun h act => some (h.step env act)) (fun h act => act.Settled env h)
      (new c) acts) :
    Always (fun h act => some (h.step env act)) (AppControllerHandle.Current env) (new c) acts := by
  refine EveryStep.always (fun _ => Informed.current) ?_ (Informed.new c) hsettled
  intro h act t hi hstep hok
  cases hstep
  exact informed_step ideal hostJson hi hok

end Steps

namespace Sample

def coded : AppEnv := ⟨platform, toml, Vault.Sample.codedPrimitives⟩

/-- A world in which no key file is there. -/
def handle_world : HandleWorld where
  toAppWorld := world
  read_to_string _ := .error ⟨"No such file or directory (os error 2)"⟩
  display _ := "id_ed25519"
  key_world n := Vault.Sample.world (UInt8.ofNat n)

/-- The directory of the config cannot be made. -/
def unwritable : HandleWorld :=
  { handle_world with
    config_io := { create_dir_all := some ⟨"Permission denied (os error 13)"⟩ } }

end Sample

/-- A rename to the name the vault has, which the config refuses here, and a lock. -/
theorem vault_subscribers_renamed :
    Always (fun h act => some (h.step Sample.coded act)) (AppControllerHandle.Current Sample.coded)
      (AppControllerHandle.new Sample.controller)
      [.subscribe, .operate (.rename_vault "vault-a" "Work") Sample.unwritable,
        .operate (.lock_named_vault "vault-a") Sample.handle_world] := by
  refine vault_subscribers_current Vault.Sample.coded_ideal
    (Vault.Sample.jsonOf_lossless Vault.Sample.hostCode) Sample.controller _ ?_
  rintro _ ⟨⟩
  refine ⟨trivial, ?_⟩
  rintro _ ⟨⟩
  refine ⟨.inr (fun state hget => ?_), ?_⟩
  · have hwork : state = ⟨Sample.work, none, none⟩ := (Option.some.inj hget).symm
    rw [hwork]
    exact .inr (.inr (.inl (by decide)))
  · rintro _ ⟨⟩
    exact ⟨.inr trivial, trivial⟩

namespace Sample

/-- The vault is forgotten, and stands in the config still. -/
def forgotten : AppController :=
  { controller with
    vaults := controller.vaults.remove "vault-a"
    auth_reference_index :=
      AuthReferenceIndex.remove_vault_auth_reference_index "vault-a"
        controller.auth_reference_index }

/-- The handle with one subscriber. -/
def watched : AppControllerHandle :=
  (AppControllerHandle.new controller).subscribe_vault_changes Sample.env

theorem deletes_half :
    (delete_vault_permanently Sample.env unwritable.toAppWorld "vault-a").run controller =
      .error (.context "failed to persist app config"
        (.config (.write ⟨"Permission denied (os error 13)"⟩))) forgotten := by
  have hvalidate : (deleted "vault-a" controller.config.config).normalized.validate platform =
      .ok () := by decide +kernel
  have hreplace : forgotten.config.update platform toml unwritable.config_io (deleted "vault-a") =
      .error (.write ⟨"Permission denied (os error 13)"⟩) := by
    unfold ConfigStore.update ConfigStore.replace
    dsimp only [forgotten]
    rw [hvalidate]
    rfl
  have hupdate : (update_config Sample.env unwritable.config_io (deleted "vault-a")).run
      forgotten = .error (.context "failed to persist app config"
        (.config (.write ⟨"Permission denied (os error 13)"⟩))) forgotten := by
    rw [update_config, run_attempt]
    dsimp only [Sample.env]
    rw [hreplace]
  unfold delete_vault_permanently
  have hstate : (vault_state "vault-a").run controller = .ok ⟨work, none, none⟩ controller := rfl
  rw [run_bind_of_ok hstate, run_bind_of_ok (bail_if_passes rfl)]
  have hread : (get : AppM AppController).run controller = .ok controller controller := rfl
  refine (run_bind_of_ok hread).trans ?_
  have hremove : (modify (fun c => { c with vaults := c.vaults.remove "vault-a" }) :
      AppM Unit).run controller =
        .ok () { controller with vaults := controller.vaults.remove "vault-a" } := rfl
  refine (run_bind_of_ok hremove).trans ?_
  have hindex : (edit_index
      (AuthReferenceIndex.remove_vault_auth_reference_index "vault-a")).run
        { controller with vaults := controller.vaults.remove "vault-a" } =
          .ok () forgotten := rfl
  refine (run_bind_of_ok hindex).trans ?_
  exact run_bind_of_error hupdate

end Sample

/-- The vault is gone from the picture when the config cannot be written, and nobody is told. -/
theorem deletion_unannounced :
    Starts Sample.env Sample.start Sample.paths (some Sample.work_text.toUTF8) .empty .empty
        Sample.controller ∧
      ¬ Always (fun h act => some (h.step Sample.env act)) (AppControllerHandle.Current Sample.env)
        (AppControllerHandle.new Sample.controller)
        [.subscribe, .operate (.delete_vault_permanently "vault-a") Sample.unwritable] := by
  refine ⟨Sample.starts, fun h => ?_⟩
  have hafter : (HandleOperation.delete_vault_permanently "vault-a").after Sample.env
      Sample.unwritable Sample.watched = { Sample.watched with controller := Sample.forgotten } := by
    rcases AppControllerHandle.publishing_ends (fun _ => true) _ Sample.watched with
      ⟨_, _, hrun, _⟩ | ⟨_, hfinal, ⟨_, hrun⟩ | ⟨_, hrun, _⟩⟩
    · cases Sample.deletes_half.symm.trans hrun
    · cases Sample.deletes_half.symm.trans hrun
      exact hfinal
    · cases Sample.deletes_half.symm.trans hrun
  have hcurrent : AppControllerHandle.Current Sample.env
      ((HandleOperation.delete_vault_permanently "vault-a").after Sample.env Sample.unwritable
        Sample.watched) := h.final
  rw [hafter] at hcurrent
  have hlast : vault_ui_snapshot Sample.env Sample.controller =
      vault_ui_snapshot Sample.env Sample.forgotten := Option.some.inj (hcurrent 0 rfl)
  have hcount := congrArg (fun snapshot => snapshot.managed_vaults.length) hlast
  have hone : (list_vaults Sample.env Sample.controller).length = 1 := by
    unfold list_vaults
    rw [(orderBy_perm _ _).length_eq]
    rfl
  have hnone : (list_vaults Sample.env Sample.forgotten).length = 0 := by
    unfold list_vaults
    rw [(orderBy_perm _ _).length_eq]
    rfl
  cases hone.symm.trans (hcount.trans hnone)

end Seance.Core
