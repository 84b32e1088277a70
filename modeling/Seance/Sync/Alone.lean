import Seance.Lib.Alone
import Seance.Sync.Stream

namespace Seance.Sync
open Lib

variable {J α β : Type}

section Length

variable {P : Platform J} {i : Nat}

theorem within_perform {α : Type} {n : Nat} {op : Op J} {f : op.Answer → Handler J α}
    (h : ∀ b, (f b).run.Within n) : (perform op >>= f).run.Within (n + 1) := h

theorem within_assertUserActive (userId : String) :
    (assertUserActive (J := J) userId).run.Within 1 := by
  refine within_perform ?_
  intro row
  split
  · exact Proc.within_done _ _
  · split <;> exact Proc.within_done _ _

theorem within_getVaultForUser (vaultId userId : String) :
    (getVaultForUser (J := J) vaultId userId).run.Within 1 := by
  refine within_perform ?_
  intro row
  split
  · exact Proc.within_done _ _
  · split <;> exact Proc.within_done _ _

theorem within_appendCommit (body : AppendCommitRequest J) :
    (appendCommit P i body).run.Within 3 := by
  unfold appendCommit
  split
  · exact Proc.within_done _ _
  split
  · exact Proc.within_done _ _
  split
  · exact Proc.within_done _ _
  refine within_perform ?_
  intro existing
  split
  · exact Proc.within_done _ _
  · exact within_perform (fun _ => within_perform (fun _ => Proc.within_done _ _))

/-- A commit upload takes five operations at most: user, vault, key, object, batch. -/
theorem within_fetch (userId vaultId : String) (upload : CommitUploadRequest J) :
    (fetch P i (.uploadCommit userId vaultId upload)).Within 5 := by
  have happend : ∀ body : AppendCommitRequest J,
      (stubFetch (appendCommit P i body)).run.Within (3 + 0) :=
    fun body => (within_appendCommit body).bind (fun _ => Proc.within_done _ _)
  have hupload : ∀ user, (uploadCommit P i user vaultId upload).run.Within (1 + 3) :=
    fun user => (within_getVaultForUser vaultId user.userId).except_bind (fun _ => happend _)
  have hhandle : (handleFetch P i (.uploadCommit userId vaultId upload)).run.Within (1 + 4) :=
    (within_assertUserActive userId).except_bind hupload
  exact hhandle.bind (m := 0) (fun _ => Proc.within_done _ _)

end Length

/-- A handler with nobody else on the server: what it returns or throws, or none after a
failed operation, and the state it leaves. -/
def Handler.alone (x : Handler J α) (s : Server J) : Option (Except Failure α) × Server J :=
  x.run.alone (fun op t => op.apply t) s

namespace Handler

variable {s t : Server J}

@[simp] theorem alone_pure (a : α) : (pure a : Handler J α).alone s = (some (.ok a), s) := rfl

@[simp] theorem alone_httpError (status : Nat) (message : String) :
    (httpError status message : Handler J α).alone s = (some (.error (.http status message)), s) :=
  rfl

theorem alone_bind (x : Handler J β) (f : β → Handler J α) :
    (x >>= f).alone s =
      match x.alone s with
      | (some (.ok b), t) => (f b).alone t
      | (some (.error e), t) => (some (.error e), t)
      | (none, t) => (none, t) := by
  unfold Handler.alone
  rw [Proc.alone_except_bind]
  split <;> rename_i h <;> rw [h]

theorem alone_bind_of_ok {x : Handler J β} {f : β → Handler J α} {b : β}
    (h : x.alone s = (some (.ok b), t)) : (x >>= f).alone s = (f b).alone t := by
  rw [alone_bind, h]

theorem alone_bind_of_error {x : Handler J β} {f : β → Handler J α} {e : Failure}
    (h : x.alone s = (some (.error e), t)) : (x >>= f).alone s = (some (.error e), t) := by
  rw [alone_bind, h]

theorem alone_perform_of_some {op : Op J} {f : op.Answer → Handler J α} {b : op.Answer}
    (h : op.apply s = some (b, t)) : (perform op >>= f).alone s = (f b).alone t :=
  Proc.alone_await_of_some h

theorem alone_perform_of_none {op : Op J} {f : op.Answer → Handler J α}
    (h : op.apply s = none) : (perform op >>= f).alone s = (none, s) :=
  Proc.alone_await_of_none h

/-- What crosses the stub: an answer as it is, an exception without its class. -/
theorem alone_stubFetch (x : Handler J α) : (stubFetch x).alone s =
    ((x.alone s).1.map (fun res => res.mapError (fun _ => Failure.other)), (x.alone s).2) := by
  have hrun : (stubFetch x).run = (x.run >>= fun res =>
      (pure (res.mapError (fun _ => Failure.other)) : Proc Op.Answer (Except Failure α))) := rfl
  cases hx : x.alone s with
  | mk o t =>
    have hx : Proc.alone (fun op t => Op.apply t op) x.run s = (o, t) := hx
    rw [Handler.alone, hrun, Proc.alone_bind, hx]
    cases o with
    | none => rfl
    | some res => rfl

end Handler

section Functions

variable {s : Server J} {userId vaultId roomId : String}

theorem assertUserActive_of_active (h : s.db.IsActive userId) :
    ∃ user : AuthenticatedUser, user.userId = userId ∧
      (assertUserActive userId).alone s = (some (.ok user), s) := by
  obtain ⟨row, hrow, hon⟩ := h
  have hid : row.userId = userId := Table.find?_key hrow
  refine ⟨⟨row.userId, row.primaryEmail⟩, hid, ?_⟩
  refine (Handler.alone_perform_of_some rfl).trans ?_
  simp only [hrow, hon, ↓reduceIte, Handler.alone_pure]

theorem assertUserActive_of_not_active (h : ¬ s.db.IsActive userId) :
    (assertUserActive userId).alone s =
      (some (.error (.http 401 "User is not authorized.")), s) := by
  refine (Handler.alone_perform_of_some rfl).trans ?_
  cases hrow : s.db.users.find? userId with
  | none => rfl
  | some row =>
    have hoff : row.disabledAt ≠ none := fun hon => h ⟨row, hrow, hon⟩
    simp only [hoff, ↓reduceIte, Handler.alone_httpError]

theorem getVaultForUser_of_visible {row : VaultSummaryRow}
    (h : s.db.vaultForUser vaultId userId = some row) (hdel : row.deletedAt = none) :
    (getVaultForUser vaultId userId).alone s = (some (.ok row), s) := by
  refine (Handler.alone_perform_of_some rfl).trans ?_
  simp only [h, hdel, ↓reduceIte, Handler.alone_pure]

theorem getVaultForUser_of_not_visible (h : ¬ s.db.Visible vaultId userId) :
    (getVaultForUser vaultId userId).alone s =
      (some (.error (.http 404 "Vault was not found.")), s) := by
  refine (Handler.alone_perform_of_some rfl).trans ?_
  cases hrow : s.db.vaultForUser vaultId userId with
  | none => rfl
  | some row =>
    have hdel : row.deletedAt ≠ none := fun hon => h ⟨row, hrow, hon⟩
    simp only [hdel, ↓reduceIte, Handler.alone_httpError]

theorem getRoomForUser_of_some {row : RoomSummaryRow}
    (h : s.db.roomForUser roomId userId = some row) :
    (getRoomForUser roomId userId).alone s = (some (.ok row), s) := by
  refine (Handler.alone_perform_of_some rfl).trans ?_
  rw [h]
  rfl

theorem getRoomForUser_of_none (h : s.db.roomForUser roomId userId = none) :
    (getRoomForUser roomId userId).alone s =
      (some (.error (.http 404 "Room was not found.")), s) := by
  refine (Handler.alone_perform_of_some rfl).trans ?_
  rw [h]
  rfl

end Functions

section Fetch

variable (P : Platform J) (i : Nat) (r : Request J) (s : Server J)

/-- A request that is served alone: its reply and the state it leaves. -/
def fetchAlone : Reply J × Server J :=
  ((((fetch P i r).alone (syncService P).apply s).1).getD internalError,
    ((fetch P i r).alone (syncService P).apply s).2)

variable {P i r s}

theorem fetchAlone_of_some {res : Except Failure (Reply J)} {t : Server J}
    (h : (handleFetch P i r).alone s = (some res, t)) :
    fetchAlone P i r s = (errorReply res, t) := by
  have halone : (fetch P i r).alone (syncService P).apply s = (some (errorReply res), t) := by
    refine (Proc.alone_bind _ _).trans ?_
    have hrun : (handleFetch P i r).run.alone (syncService P).apply s = (some res, t) := h
    rw [hrun]
    rfl
  rw [fetchAlone, halone, Option.getD_some]

theorem fetchAlone_of_none {t : Server J} (h : (handleFetch P i r).alone s = (none, t)) :
    fetchAlone P i r s = (internalError, t) := by
  have halone : (fetch P i r).alone (syncService P).apply s = (none, t) := by
    refine (Proc.alone_bind _ _).trans ?_
    have hrun : (handleFetch P i r).run.alone (syncService P).apply s = (none, t) := h
    rw [hrun]
  rw [fetchAlone, halone, Option.getD_none]

/-- A request that comes after a run and is served to its end before any other. -/
theorem serverAfter_alone {users : Table UserRow.userId} {turns : List (Turn (Request J))} {n : Nat}
    (hi : (serverAfter P users turns).tasks.length = i)
    (h : (fetch P i r).Ends (syncService P).apply n (serverAfter P users turns).shared) :
    serverAfter P users (turns ++ .arrive r :: List.replicate n (.serve i .intact)) =
      ⟨(fetchAlone P i r (serverAfter P users turns).shared).2, (serverAfter P users turns).tasks ++
        [⟨r, .done (fetchAlone P i r (serverAfter P users turns).shared).1⟩]⟩ := by
  subst hi
  rw [serverAfter_append, Service.run_request_alone h]
  rfl

theorem reply_alone {users : Table UserRow.userId} {turns : List (Turn (Request J))} {n : Nat}
    (hi : (serverAfter P users turns).tasks.length = i)
    (h : (fetch P i r).Ends (syncService P).apply n (serverAfter P users turns).shared) :
    (serverAfter P users (turns ++ .arrive r :: List.replicate n (.serve i .intact))).reply i =
      some (fetchAlone P i r (serverAfter P users turns).shared).1 := by
  rw [serverAfter_alone hi h, Pool.reply, ← hi, List.getElem?_concat_length]
  rfl

end Fetch

section Upload

variable {P : Platform J} {i : Nat} {s : Server J} {userId vaultId : String}
variable {row : VaultSummaryRow} {upload : CommitUploadRequest J}

theorem appendCommit_alone {body : AppendCommitRequest J} {db : Database}
    (hform : WellFormed body.vault.vaultId body.upload)
    (hfirst : s.db.idempotencyKeys.find?
      (body.vault.vaultId, body.upload.authorDeviceId, body.upload.idempotencyKey) = none)
    (hdb : (commitBatchFor P i body).execute s.db = some db) :
    (appendCommit P i body).alone s =
      (some (.ok (.commitAccepted body.streamSeq
        ⟨body.vault.vaultId, body.streamSeq, body.resultLogicalClock⟩ body.resultLogicalClock)),
        ⟨db, s.blobs.put ⟨(commitBatchFor P i body).objectKey, .delta body.upload.delta⟩⟩) := by
  have hop : Op.apply ⟨s.db, s.blobs.put
      ⟨(commitBatchFor P i body).objectKey, .delta body.upload.delta⟩⟩
      (.commitBatch (commitBatchFor P i body)) =
      some ((), ⟨db, s.blobs.put
        ⟨(commitBatchFor P i body).objectKey, .delta body.upload.delta⟩⟩) := by
    rw [Op.apply, hdb, Option.map_some]
    rfl
  unfold appendCommit
  rw [if_neg (not_not.mpr hform.vault), if_neg (Int.not_lt.mpr hform.clocks),
    if_neg (Nat.not_lt.mpr hform.size)]
  refine (Handler.alone_perform_of_some rfl).trans ?_
  rw [hfirst]
  exact (Handler.alone_perform_of_some rfl).trans (Handler.alone_perform_of_some hop)

/-- After a batch, its vault's row is read with the new number. -/
theorem Executed.read_head {b : CommitBatch J} {db db' : Database} (h : Executed b db db')
    (hrow : db'.vaultForUser b.body.vault.vaultId userId = some row) :
    row.currentStreamSeq = b.body.streamSeq := by
  obtain ⟨w, _, hw, _, _, rfl⟩ := Database.vaultForUser_eq_some.mp hrow
  rw [h.find?_vault] at hw
  obtain ⟨v, hv, rfl⟩ := Option.map_eq_some_iff.mp hw
  rw [if_pos (Table.find?_key hv)]

/-- A well-formed upload of a member under a key not in use is accepted when it runs alone. -/
theorem uploadCommit_alone (hs : Consistent s) (hactive : s.db.IsActive userId)
    (hrow : s.db.vaultForUser vaultId userId = some row) (hdel : row.deletedAt = none)
    (hform : WellFormed vaultId upload) (hunused : Unused P i s)
    (hfirst : s.db.idempotencyKeys.find?
      (vaultId, upload.authorDeviceId, upload.idempotencyKey) = none) :
    ∃ db, Executed (commitBatchFor P i ⟨userId, row, upload⟩) s.db db ∧
      (fetchAlone P i (.uploadCommit userId vaultId upload) s).2.db = db := by
  obtain ⟨hid, hheld⟩ := held_of_read hs hrow
  have hvault := hform.vault
  rw [← hid] at hvault hfirst
  obtain ⟨v, hv, _⟩ := hheld.vault
  have hhead : v.currentStreamSeq = row.currentStreamSeq := by
    obtain ⟨w, m, hw, _, _, rfl⟩ := Database.vaultForUser_eq_some.mp hrow
    rw [Table.find?_key hw, hw] at hv
    cases hv
    rfl
  have hexec : (commitBatchFor P i ⟨userId, row, upload⟩).execute s.db ≠ none := by
    refine CommitBatch.execute_isSome (Option.isSome_iff_exists.mpr ⟨v, hv⟩) hactive.hasUser
      hunused.commits ?_ hfirst
    rw [Table.find?_eq_none]
    intro c hc hkey
    have hcv : c.vaultId = v.vaultId :=
      (congrArg Prod.fst hkey).trans (Table.find?_key hv).symm
    have hcn : c.streamSeq = row.currentStreamSeq + 1 := congrArg Prod.snd hkey
    have hle := ((hs.exists_commit_iff (Table.mem_of_find? hv) c.streamSeq).mp
      ⟨c, hc, hcv, rfl⟩).2
    omega
  obtain ⟨db, hdb⟩ := Option.ne_none_iff_exists'.mp hexec
  obtain ⟨user, rfl, huser⟩ := assertUserActive_of_active hactive
  refine ⟨db, CommitBatch.executed hdb, ?_⟩
  obtain ⟨reply, blobs, happend⟩ : ∃ reply blobs,
      (appendCommit P i ⟨user.userId, row, upload⟩).alone s = (some (.ok reply), ⟨db, blobs⟩) :=
    ⟨_, _, appendCommit_alone (hid.symm ▸ hform) hfirst hdb⟩
  have hhandle : (handleFetch P i (.uploadCommit user.userId vaultId upload)).alone s =
      (some (.ok reply), ⟨db, blobs⟩) := by
    refine (Handler.alone_bind_of_ok huser).trans ?_
    refine (Handler.alone_bind_of_ok (getVaultForUser_of_visible hrow hdel)).trans ?_
    rw [Handler.alone_stubFetch, happend]
    rfl
  rw [fetchAlone_of_some hhandle]

end Upload

section Bootstrap

variable {P : Platform J} {i : Nat} {s : Server J} {userId vaultId : String}
variable {row : VaultSummaryRow} {m : SnapshotManifestRow} {snapshot : Payload J}

theorem loadCommitEnvelope_alone {c : VaultCommitRow} {e : CommitEnvelope J}
    (h : envelopeOf s c = some e) : (loadCommitEnvelope c).alone s = (some (.ok e), s) := by
  obtain ⟨b, hb, rfl⟩ := Option.map_eq_some_iff.mp h
  refine (Handler.alone_perform_of_some rfl).trans ?_
  simp only [hb, Option.map_some]
  rfl

theorem loadCommitEnvelopes_alone {rows : List VaultCommitRow} {envelopes : List (CommitEnvelope J)}
    (h : List.Forall₂ (fun c e => envelopeOf s c = some e) rows envelopes) :
    (loadCommitEnvelopes rows).alone s = (some (.ok envelopes), s) := by
  induction h with
  | nil => rfl
  | cons hload _ ih =>
    refine (Handler.alone_bind_of_ok (loadCommitEnvelope_alone hload)).trans ?_
    exact (Handler.alone_bind_of_ok ih).trans rfl

/-- Every commit of a consistent state can be loaded. -/
theorem Consistent.loads (h : Consistent s) {rows : List VaultCommitRow}
    (hrows : ∀ c ∈ rows, c ∈ s.db.commits.rows) :
    ∃ envelopes, List.Forall₂ (fun c e => envelopeOf s c = some e) rows envelopes := by
  induction rows with
  | nil => exact ⟨[], .nil⟩
  | cons c rows ih =>
    obtain ⟨envelopes, hload⟩ := ih (fun c hc => hrows c (List.mem_cons_of_mem _ hc))
    obtain ⟨d, hd, _⟩ := h.stored c (hrows c List.mem_cons_self)
    exact ⟨_, .cons (by rw [envelopeOf, hd, Option.map_some]) hload⟩

theorem Database.mem_commitsAfterSeq {db : Database} {afterSeq limit : Int} {c : VaultCommitRow}
    (h : c ∈ db.commitsAfterSeq vaultId afterSeq limit) : c ∈ db.commits.rows := by
  have hmem := List.mem_of_mem_take h
  rw [mem_orderBy] at hmem
  exact (List.mem_filter.mp hmem).1

/-- A member's bootstrap that runs alone is answered from the state it finds. -/
theorem bootstrap_alone (hs : Consistent s) (hactive : s.db.IsActive userId)
    (hrow : s.db.vaultForUser vaultId userId = some row) (hdel : row.deletedAt = none)
    (hm : s.db.latestManifest vaultId = some m)
    (hsnapshot : s.blobs.find? m.r2ObjectKey = some ⟨m.r2ObjectKey, snapshot⟩) :
    ∃ envelopes, List.Forall₂ (fun c e => envelopeOf s c = some e)
        (s.db.commitsAfterSeq vaultId m.streamSeqAtSnapshot 200) envelopes ∧
      fetchAlone P i (.bootstrap userId vaultId) s =
        (.bootstrap row snapshot envelopes
          ⟨row.vaultId, row.currentStreamSeq, row.currentLogicalClock⟩, s) := by
  obtain ⟨user, rfl, huser⟩ := assertUserActive_of_active hactive
  have hrows : ∀ c ∈ s.db.commitsAfterSeq vaultId m.streamSeqAtSnapshot 200, c ∈ s.db.commits.rows :=
    fun c hc => Database.mem_commitsAfterSeq hc
  obtain ⟨envelopes, hload⟩ := hs.loads hrows
  refine ⟨envelopes, hload, ?_⟩
  have hhandle : (handleFetch P i (.bootstrap user.userId vaultId)).alone s =
      (some (.ok (.bootstrap row snapshot envelopes
        ⟨row.vaultId, row.currentStreamSeq, row.currentLogicalClock⟩)), s) := by
    refine (Handler.alone_bind_of_ok huser).trans ?_
    refine (Handler.alone_bind_of_ok (getVaultForUser_of_visible hrow hdel)).trans ?_
    refine (Handler.alone_bind_of_ok (t := s) (b := m) ?_).trans ?_
    · refine (Handler.alone_perform_of_some rfl).trans ?_
      rw [hm]
      rfl
    refine (Handler.alone_perform_of_some rfl).trans ?_
    simp only [hsnapshot, Option.map_some]
    refine (Handler.alone_perform_of_some rfl).trans ?_
    exact (Handler.alone_bind_of_ok (loadCommitEnvelopes_alone hload)).trans rfl
  rw [fetchAlone_of_some hhandle]
  rfl

theorem within_loadCommitEnvelopes (rows : List VaultCommitRow) :
    (loadCommitEnvelopes (J := J) rows).run.Within rows.length := by
  induction rows with
  | nil => trivial
  | cons row rows ih =>
    have hload : (loadCommitEnvelope (J := J) row).run.Within 1 := by
      refine within_perform ?_
      intro object
      split <;> exact Proc.within_done _ _
    rw [List.length_cons, Nat.add_comm]
    refine hload.except_bind ?_
    intro envelope
    exact ih.except_bind (m := 0) (fun _ => trivial)

theorem ends_perform {α : Type} {n : Nat} {op : Op J} {f : op.Answer → Handler J α}
    (h : ∀ b t, op.apply s = some (b, t) → (f b).run.Ends (syncService P).apply n t) :
    (perform op >>= f).run.Ends (syncService P).apply (n + 1) s := h

/-- A bootstrap alone takes 205 operations at most: user, vault, manifest, object, page, and
the objects of the page. -/
theorem ends_bootstrap :
    (fetch P i (.bootstrap userId vaultId)).Ends (syncService P).apply 205 s := by
  have hlatest : (getLatestSnapshotManifest (J := J) vaultId).run.Within 1 := by
    refine within_perform ?_
    intro row
    split <;> exact Proc.within_done _ _
  have hpage : ∀ (m : SnapshotManifestRow) (vault : VaultSummaryRow) (snapshot : Payload J) t,
      (perform (J := J) (.selectCommitsAfterSeq vaultId m.streamSeqAtSnapshot 200) >>= fun rows => do
        let envelopes ← loadCommitEnvelopes rows
        pure (Reply.bootstrap vault snapshot envelopes
          ⟨vault.vaultId, vault.currentStreamSeq, vault.currentLogicalClock⟩)).run.Ends
        (syncService P).apply (200 + 1) t := by
    intro m vault snapshot t
    refine ends_perform ?_
    intro rows u happly
    cases happly
    refine ((within_loadCommitEnvelopes _).except_bind
      (fun _ => Proc.within_done 0 _)).ends.mono ?_
    exact List.length_take_le 200 _
  have hbootstrap : ∀ (user : AuthenticatedUser) t,
      (bootstrap (J := J) user vaultId).run.Ends (syncService P).apply (1 + (1 + (200 + 2))) t := by
    intro user t
    refine (within_getVaultForUser vaultId user.userId).ends.except_bind ?_
    intro vault u _
    refine hlatest.ends.except_bind ?_
    intro m v _
    refine ends_perform ?_
    intro object w happly
    split
    · exact Proc.ends_done _ _
    · exact hpage m vault _ w
  have hhandle : (handleFetch P i (.bootstrap userId vaultId)).run.Ends (syncService P).apply
      (1 + (1 + (1 + (200 + 2)))) s :=
    (within_assertUserActive userId).ends.except_bind (fun user t _ => hbootstrap user t)
  exact hhandle.bind (m := 0) (fun _ _ _ => Proc.ends_done _ _)

end Bootstrap

end Seance.Sync
