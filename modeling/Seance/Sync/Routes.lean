import Seance.Sync.Outcome

namespace Seance.Sync
open Lib

variable {J : Type} {P : Platform J} {T : Terms (Server J) (Request J) (Op J)}
variable {i : Nat} {r : Request J} {s : Server J}

section Steps

variable {α : Type} {Q : Except Failure α → Server J → Prop}

theorem serves_putBlob {key : String} {payload : Payload J}
    {f : Op.Answer (.putBlob key payload : Op J) → Handler J α} (hs : Unused P i s)
    (hk : Names P i key)
    (h : ∀ t u, LeavesAlone P T i r s t → Consistent t → Consistent u → Grows t u → u.db = t.db →
      u.blobs.find? key = some ⟨key, payload⟩ → Serves P T i r Q (f ()) u) :
    Serves P T i r Q (perform (.putBlob key payload) >>= f) s := by
  refine Serves.write (b := ())
    (g := fun t => { t with blobs := t.blobs.put ⟨key, payload⟩ }) (fun _ => rfl) ?_
  intro t hrely hinv
  have hfree := (hrely.unused hs).free hk
  refine ⟨consistent_putBlob hinv hfree, moves_putBlob hfree hk, ?_⟩
  refine h t _ hrely hinv (consistent_putBlob hinv hfree) (grows_putBlob hfree) rfl ?_
  rw [Table.find?_put, if_pos rfl]

/-- The batch of an accepted upload, from a poised state. -/
theorem serves_commitBatch (hT : Settled T) {b : CommitBatch J}
    {f : Op.Answer (.commitBatch b : Op J) → Handler J α} (hp : Poised T r b s)
    (hid : b.commitId = P.randomUUID i)
    (hblob : s.blobs.find? b.objectKey = some ⟨b.objectKey, .delta b.body.upload.delta⟩)
    (haddress : b.body.upload.delta.vaultId = b.body.vault.vaultId)
    (h : ∀ u, Grows s u → Consistent u → b.commitRow ∈ u.db.commits.rows →
      u.db.idempotencyKeys.find? b.idempotencyKeyRow.key = some b.idempotencyKeyRow →
      u.blobs.find? b.objectKey = some ⟨b.objectKey, .delta b.body.upload.delta⟩ →
      Serves P T i r Q (f ()) u) :
    Serves P T i r Q (perform (.commitBatch b) >>= f) s := by
  refine Serves.perform ?_ ?_
  · intro t hrely hinv hlegal hnone
    exact hT.batch i r b t hlegal (hp.others hid hrely hinv) (Option.map_eq_none_iff.mp hnone)
  · intro t _ u hrely hinv hop
    obtain ⟨db, hexec, hu⟩ := Option.map_eq_some_iff.mp hop
    cases hu
    have hx := CommitBatch.executed hexec
    have hpt := hp.others hid hrely hinv
    have hgrows := hpt.grows hx
    obtain ⟨v, hv, hhead⟩ := hpt.head hx
    have hstored := hrely.grows.blobs _ _ hblob
    have hinv' := consistent_commitBatch hinv hx hv hhead hstored haddress
    refine ⟨hinv', moves_commitBatch hx hgrows hid hpt.key, fun _ => ?_⟩
    exact h _ (hrely.grows.trans hgrows) hinv' (hx.mem_commits.mpr (.inr rfl)) hx.find?_idempotencyKey hstored

theorem serves_insertManifest (hT : Settled T) {row : SnapshotManifestRow}
    {f : Op.Answer (.insertManifest row : Op J) → Handler J α} (hr : r.uploadKey = none)
    (hid : row.snapshotId = P.randomUUID i) (hbase : BaseRead T i r row) (hrow : Archived s row)
    (h : ∀ t, Serves P T i r Q (f ()) t) :
    Serves P T i r Q (perform (.insertManifest row) >>= f) s := by
  refine Serves.perform (fun _ _ _ _ _ => hT.faulty i r hr) ?_
  intro t b u hrely hinv hop
  obtain ⟨db, hdb, hu⟩ := Option.map_eq_some_iff.mp hop
  cases hu
  exact ⟨consistent_insertManifest hinv hdb (hrely.grows.archived hrow), moves_insertManifest hdb hid hbase, fun _ => h _⟩

end Steps

theorem serves_createVault (hT : Settled T) (user : AuthenticatedUser)
    (body : CreateVaultRequest J) (hr : r.uploadKey = none)
    (hbase : ∀ m, BaseRead T i r m) (hs : Unused P i s) :
    Serves P T i r (fun _ _ => True) (createVault P i user body) s := by
  unfold createVault
  split
  · exact Serves.httpError trivial
  refine serves_putBlob hs (names_snapshotObjectKey _) ?_
  intro _ v _ _ _ _ _ hblob
  refine Serves.bind ?_
  refine Serves.perform (fun _ _ _ _ _ => hT.faulty i r hr) ?_
  intro t b u hrely hinv hop
  obtain ⟨db, hdb, hu⟩ := Option.map_eq_some_iff.mp hop
  cases hu
  refine ⟨consistent_insertVault hinv hdb rfl, moves_insertVault hdb, fun _ => ?_⟩
  have hgrows₁ := hrely.grows.trans (grows_insertVault hdb)
  refine Serves.perform (fun _ _ _ _ _ => hT.faulty i r hr) ?_
  intro t b u hrely hinv hop
  obtain ⟨db, hdb, hu⟩ := Option.map_eq_some_iff.mp hop
  cases hu
  refine ⟨consistent_insertMembership hinv hdb, moves_insertMembership hdb, fun _ => ?_⟩
  have hgrows₂ := hgrows₁.trans (hrely.grows.trans (grows_insertMembership hdb))
  refine serves_getVaultForUser ?_ ?_
  · intro t vault hrely _ _ _
    refine Serves.returned ?_
    refine serves_insertManifest hT hr rfl (hbase _) ?_ (fun _ => Serves.pure trivial)
    exact (hgrows₂.trans hrely.grows).archived ⟨Int.le_refl 0, _, hblob⟩
  · intro t _ _
    exact Serves.thrown trivial

theorem serves_uploadSnapshot (hT : Settled T) {user : AuthenticatedUser} {vaultId : String}
    {body : SnapshotUploadRequest J} (hs : Unused P i s)
    (hr : r = .uploadSnapshot user.userId vaultId body) :
    Serves P T i r (fun _ _ => True) (uploadSnapshot P i user vaultId body) s := by
  unfold uploadSnapshot
  refine Serves.bind (serves_getVaultForUser ?_ ?_)
  · intro t vault hrely hinv hlegal hread
    refine Serves.returned ?_
    split
    · exact Serves.httpError trivial
    rename_i hheader
    refine serves_putBlob (hrely.unused hs) (names_snapshotObjectKey _) ?_
    intro _ _ _ _ _ _ _ hblob
    refine serves_insertManifest hT (by rw [hr]; rfl) rfl ?_ ?_ ?_
    · intro userId' vaultId' body' hr'
      rw [hr] at hr'
      cases hr'
      rw [hr] at hlegal
      exact ⟨rfl, not_not.mp hheader, t, vault, hr ▸ hlegal, hread, rfl⟩
    · have hzero := (held_of_read hinv hread).2.nonneg
      exact ⟨Int.le_trans hzero (Int.le_max_right _ _), _, hblob⟩
    · intro _
      refine Serves.write (b := ()) (g := fun t => { t with
        db := t.db.setLatestSnapshot vaultId _ _ _ }) (fun _ => rfl) ?_
      intro t _ hinv
      exact ⟨consistent_setLatestSnapshot hinv _ _ _ _, moves_setLatestSnapshot _ _ _ _,
        Serves.pure trivial⟩
  · intro t _ _
    exact Serves.thrown trivial

/-- What the Durable Object throws comes out as another exception. -/
theorem serves_stubFetch {α : Type} {Q : Except Failure α → Server J → Prop} {x : Handler J α}
    (h : Serves P T i r (fun res t => (∀ a, res = .ok a → Q (.ok a) t) ∧
      (∀ e, res = .error e → Q (.error .other) t)) x s) :
    Serves P T i r Q (stubFetch x) s := by
  have hmap : (stubFetch x).run = (x.run >>= fun res =>
      (pure (res.mapError (fun _ => Failure.other)) : Proc Op.Answer (Except Failure α))) := rfl
  unfold Serves
  rw [hmap]
  refine Safe.bind (Safe.mono h ?_)
  intro res t hres
  cases res with
  | ok a => exact hres.1 a rfl
  | error e => exact hres.2 e rfl

theorem serves_appendCommit (hT : Settled T) {userId : String} {row : VaultSummaryRow}
    {upload : CommitUploadRequest J} {Q : Except Failure (Reply J) → Server J → Prop}
    (hs : Untouched P T i r s) (hr : r.uploadKey =
      some (row.vaultId, upload.authorDeviceId, upload.idempotencyKey))
    (huser : s.db.hasUser userId = true) (hheld : Held row s)
    (hbad : ∀ e, ¬ WellFormed row.vaultId upload → Q (.error e) s)
    (hdup : ∀ t k, LeavesAlone P T i r s t → Consistent t →
      T.legal i r (.selectIdempotencyKey ⟨userId, row, upload⟩) t →
      t.db.idempotencyKeys.find?
        (row.vaultId, upload.authorDeviceId, upload.idempotencyKey) = some k →
      Foreign T r k →
      Q (.ok (.commitAccepted k.streamSeq
        ⟨row.vaultId, row.currentStreamSeq, row.currentLogicalClock⟩
        row.currentLogicalClock)) t)
    (hacc : ∀ t c k, Grows s t → Consistent t → c ∈ t.db.commits.rows →
      c.vaultId = row.vaultId →
      t.db.idempotencyKeys.find?
        (row.vaultId, upload.authorDeviceId, upload.idempotencyKey) = some k →
      k.streamSeq = c.streamSeq →
      t.blobs.find? c.r2ObjectKey = some ⟨c.r2ObjectKey, .delta upload.delta⟩ →
      Q (.ok (.commitAccepted c.streamSeq ⟨row.vaultId, c.streamSeq, c.resultLogicalClock⟩
        c.resultLogicalClock)) t) :
    Serves P T i r Q (appendCommit P i ⟨userId, row, upload⟩) s := by
  unfold appendCommit
  split
  · rename_i hvault
    exact Serves.httpError (hbad _ (fun hok => hvault hok.vault))
  rename_i haddress
  split
  · rename_i hclock
    exact Serves.httpError (hbad _ (fun hok => absurd hok.clocks (Int.not_le.mpr hclock)))
  split
  · rename_i hsize
    exact Serves.httpError (hbad _ (fun hok => absurd hok.size (Nat.not_le.mpr hsize)))
  refine Serves.select (g := fun t => (t.db.idempotencyKeys.find?
    (row.vaultId, upload.authorDeviceId, upload.idempotencyKey)).map
      IdempotencyKeyRow.streamSeq) (fun _ => rfl) ?_
  intro t hrely hinv hlegal
  cases hk : t.db.idempotencyKeys.find?
      (row.vaultId, upload.authorDeviceId, upload.idempotencyKey) with
  | some k =>
    exact Serves.pure (hdup t k hrely hinv hlegal hk
      ((hrely.untouched hs).idempotencyKeys k (Table.mem_of_find? hk)))
  | none =>
    refine serves_putBlob (hrely.unused hs.unused) (names_commitObjectKey _ _) ?_
    intro t₁ u hrely₁ hinv₁ hinv₂ hgrows₁ hdb hblob
    have hpoised : Poised T r (commitBatchFor P i ⟨userId, row, upload⟩) t := by
      refine ⟨hinv, hrely.grows.held hheld, hrely.grows.hasUser huser,
        (hrely.unused hs.unused).commits, hr, ?_⟩
      intro k hmem he
      exact absurd he (Table.find?_eq_none.mp hk k hmem)
    refine serves_commitBatch hT ((hpoised.others rfl hrely₁ hinv₁).of_db hdb hinv₂) rfl hblob
      (not_not.mp haddress) ?_
    intro v hgrows₂ hinv₃ hcommit hkey hblob'
    refine Serves.pure (hacc v _ _ ?_ hinv₃ hcommit rfl hkey rfl hblob')
    exact hrely.grows.trans (hrely₁.grows.trans (hgrows₁.trans hgrows₂))

theorem serves_uploadCommit (hT : Settled T) {user : AuthenticatedUser} {vaultId : String}
    {upload : CommitUploadRequest J} (hs : Untouched P T i r s)
    (hr : r = .uploadCommit user.userId vaultId upload) (hmay : T.admits i r s)
    (huser : s.db.hasUser user.userId = true) :
    Serves P T i r (fun res t => CommitOutcome T i user.userId vaultId upload (errorReply res) t)
      (uploadCommit P i user vaultId upload) s := by
  have hmays : ∀ t, Grows s t →
      T.admits i (.uploadCommit user.userId vaultId upload) t :=
    fun t hg => hr ▸ hT.admits_grows i r s t hg hmay
  unfold uploadCommit
  refine Serves.bind (serves_getVaultForUser ?_ ?_)
  · intro t row hrely hinv hlegal hread
    obtain ⟨hid, hheld⟩ := held_of_read hinv hread
    refine Serves.returned (serves_stubFetch ?_)
    refine serves_appendCommit hT (hrely.untouched hs) (by rw [hr, hid]; rfl)
      (hrely.grows.hasUser huser) hheld ?_ ?_ ?_
    · intro e hbad
      refine ⟨fun _ he => (by cases he), fun _ _ => ?_⟩
      exact .refused t row (.refl t) (hmays t hrely.grows) (hr ▸ hlegal) hread (hid ▸ hbad)
    · intro u k hrely₁ hinv₁ hlegal₁ hk hforeign
      refine ⟨fun _ he => ?_, fun _ he => (by cases he)⟩
      cases he
      subst hr
      exact .duplicate u row k (.refl u) hinv₁ hid hlegal₁ (hid ▸ hk) hforeign
    · intro u c k hgrows hinv₁ hc hv hk hseq hblob
      refine ⟨fun _ he => ?_, fun _ he => (by cases he)⟩
      cases he
      rw [hid] at hv hk ⊢
      exact .accepted c k hc hv hk hseq hblob
  · intro t hrely hno
    exact Serves.thrown (.denied t (.refl t) (hmays t hrely.grows) (by decide)
      (fun hok => hno hok.2))

theorem serves_loadCommitEnvelopes {rows : List VaultCommitRow}
    {Q : Except Failure (List (CommitEnvelope J)) → Server J → Prop}
    (hok : ∀ t envelopes, Grows s t →
      List.Forall₂ (fun c e => envelopeOf t c = some e) rows envelopes → Q (.ok envelopes) t)
    (herr : ∀ t status message, Q (.error (.http status message)) t) :
    Serves P T i r Q (loadCommitEnvelopes rows) s := by
  induction rows generalizing s Q with
  | nil => exact Serves.pure (hok s [] (.refl s) .nil)
  | cons c rows ih =>
    refine Serves.bind ?_
    refine Serves.select (g := fun t => (t.blobs.find? c.r2ObjectKey).map Blob.payload)
      (fun _ => rfl) ?_
    intro t hrely _ _
    cases hb : t.blobs.find? c.r2ObjectKey with
    | none => exact Serves.httpError (Serves.thrown (herr t _ _))
    | some blob =>
      have hload : envelopeOf t c =
          some ⟨c.streamSeq, c.commitId, c.authorDeviceId, c.createdAt, blob.payload⟩ := by
        rw [envelopeOf, hb, Option.map_some]
      refine Serves.pure (Serves.returned (Serves.bind (ih ?_ ?_)))
      · intro u envelopes hgrows hrest
        exact Serves.returned (Serves.pure (hok u _ (hrely.grows.trans hgrows)
          (.cons (hgrows.envelopeOf hload) hrest)))
      · intro u status message
        exact Serves.thrown (herr u _ _)

theorem serves_pullCommits {user : AuthenticatedUser} {vaultId : String}
    {afterSeq limit : Option Int} (hr : r = .pullCommits user.userId vaultId afterSeq limit) :
    Serves P T i r
      (fun res t => PullOutcome T i user.userId vaultId afterSeq limit (errorReply res) t)
      (pullCommits user vaultId afterSeq limit) s := by
  unfold pullCommits
  refine Serves.bind (serves_getVaultForUser ?_ ?_)
  · intro t row _ _ _ _
    refine Serves.returned (Serves.select (g := fun u =>
      u.db.commitsAfterSeq vaultId (afterSeq.getD 0) (pageLimit limit)) (fun _ => rfl) ?_)
    intro u _ hinv hlegal
    refine Serves.bind (serves_loadCommitEnvelopes ?_ ?_)
    · intro v envelopes hgrows hload
      subst hr
      exact Serves.returned (Serves.pure (.page u envelopes _ _ hgrows hinv hlegal hload))
    · intro v status message
      exact Serves.thrown .failed
  · intro t _ _
    exact Serves.thrown .failed

theorem serves_listVaults (user : AuthenticatedUser) :
    Serves P T i r (fun _ _ => True) (listVaults user) s :=
  Serves.select (g := fun t => t.db.vaultsForUser user.userId) (fun _ => rfl)
    (fun _ _ _ _ => Serves.pure trivial)

theorem serves_getVault (user : AuthenticatedUser) (vaultId : String) :
    Serves P T i r (fun _ _ => True) (getVault user vaultId) s := by
  unfold getVault
  refine Serves.bind (serves_getVaultForUser ?_ ?_)
  · intro t row _ _ _ _
    exact Serves.returned (Serves.pure trivial)
  · intro t _ _
    exact Serves.thrown trivial

theorem serves_getLatestSnapshotManifest {vaultId : String}
    {Q : Except Failure SnapshotManifestRow → Server J → Prop}
    (hok : ∀ t m, LeavesAlone P T i r s t → Consistent t →
      T.legal i r (.selectLatestManifest vaultId) t → t.db.latestManifest vaultId = some m →
      Q (.ok m) t)
    (herr : ∀ t, Q (.error (.http 404 "Vault snapshot was not found.")) t) :
    Serves P T i r Q (getLatestSnapshotManifest vaultId) s := by
  refine Serves.select (g := fun t => t.db.latestManifest vaultId) (fun _ => rfl) ?_
  intro t hrely hinv hlegal
  split
  · exact Serves.httpError (herr t)
  · rename_i m hm
    exact Serves.pure (hok t m hrely hinv hlegal hm)

theorem serves_bootstrap {user : AuthenticatedUser} {vaultId : String}
    (hr : r = .bootstrap user.userId vaultId) :
    Serves P T i r (fun res t => BootstrapOutcome T i user.userId vaultId (errorReply res) t)
      (bootstrap user vaultId) s := by
  unfold bootstrap
  refine Serves.bind (serves_getVaultForUser ?_ ?_)
  · intro t vault _ hinv hread hvault
    refine Serves.returned (Serves.bind (serves_getLatestSnapshotManifest ?_ ?_))
    · intro u m htu hinv₁ hlatest hm
      refine Serves.returned (Serves.select (g := fun t =>
        (t.blobs.find? m.r2ObjectKey).map Blob.payload) (fun _ => rfl) ?_)
      intro u' huu' hinv₂ _
      obtain ⟨_, sn, hsn⟩ := hinv₁.archived m (Database.mem_latestManifest hm).1
      simp only [huu'.grows.blobs _ _ hsn, Option.map_some]
      refine Serves.select (g := fun t =>
        t.db.commitsAfterSeq vaultId m.streamSeqAtSnapshot 200) (fun _ => rfl) ?_
      intro v hrely hinv₃ _
      have huv : Grows u v := huu'.grows.trans hrely.grows
      refine Serves.bind (serves_loadCommitEnvelopes ?_ ?_)
      · intro w envelopes hgrows hload
        subst hr
        exact Serves.returned (Serves.pure (.served t u v vault m _ envelopes hinv hread hvault
          htu.grows hlatest hm huv hinv₃ hgrows (hgrows.blobs _ _ (huv.blobs _ _ hsn)) hload))
      · intro w status message
        exact Serves.thrown .failed
    · intro u
      exact Serves.thrown .failed
  · intro t _ _
    exact Serves.thrown .failed

theorem serves_openEvents (user : AuthenticatedUser) (vaultId : String)
    (upgrade : Option String) :
    Serves P T i r (fun _ _ => True) (openEvents user vaultId upgrade) s := by
  unfold openEvents
  refine Serves.bind (serves_getVaultForUser ?_ ?_)
  · intro t row _ _ _ _
    refine Serves.returned (serves_stubFetch ?_)
    unfold openEventStream
    split
    · exact Serves.httpError ⟨fun _ _ => trivial, fun _ _ => trivial⟩
    · exact Serves.pure ⟨fun _ _ => trivial, fun _ _ => trivial⟩
  · intro t _ _
    exact Serves.thrown trivial

theorem serves_createRoom (hT : Settled T) (user : AuthenticatedUser) (body : CreateRoomRequest)
    (hr : r.uploadKey = none) :
    Serves P T i r (fun _ _ => True) (createRoom P i user body) s := by
  unfold createRoom
  refine Serves.bind (serves_getVaultForUser ?_ ?_)
  · intro t row _ _ _ _
    refine Serves.returned (Serves.perform (fun _ _ _ _ _ => hT.faulty i r hr) ?_)
    intro t b u _ hinv hop
    obtain ⟨db, hdb, hu⟩ := Option.map_eq_some_iff.mp hop
    cases hu
    exact ⟨consistent_insertRoom hinv hdb, moves_insertRoom hdb, fun _ => Serves.pure trivial⟩
  · intro t _ _
    exact Serves.thrown trivial

theorem serves_getRoomForUser {roomId userId : String}
    {Q : Except Failure RoomSummaryRow → Server J → Prop} (h : ∀ res t, Q res t) :
    Serves P T i r Q (getRoomForUser roomId userId) s := by
  refine Serves.select (g := fun t => t.db.roomForUser roomId userId) (fun _ => rfl) ?_
  intro t _ _ _
  split
  · exact Serves.httpError (h _ _)
  · exact Serves.pure (h _ _)

theorem serves_joinRoom (user : AuthenticatedUser) (roomId : String) :
    Serves P T i r (fun _ _ => True) (joinRoom P i user roomId) s :=
  Serves.bind (serves_getRoomForUser
    (fun _ _ => ⟨fun _ _ => Serves.pure trivial, fun _ _ => trivial⟩))

theorem serves_roomToken (user : AuthenticatedUser) (roomId : String) (scope : RoomScope) :
    Serves P T i r (fun _ _ => True) (roomToken P i user roomId scope) s :=
  Serves.bind (serves_getRoomForUser
    (fun _ _ => ⟨fun _ _ => Serves.pure trivial, fun _ _ => trivial⟩))

/-- A route whose answer nothing is said about, behind the check of its user. -/
theorem serves_authorized {userId : String} {f : AuthenticatedUser → Handler J (Reply J)}
    (h : ∀ t user, LeavesAlone P T i r s t → user.userId = userId →
      Serves P T i r (fun _ _ => True) (f user) t) :
    Serves P T i r (fun _ _ => True) (assertUserActive userId >>= f) s := by
  refine Serves.bind (serves_assertUserActive ?_ ?_)
  · intro t user hrely huser _
    exact Serves.returned (h t user hrely huser)
  · intro t _ _
    exact Serves.thrown trivial

theorem serves_handleFetch (hT : Settled T) (hs : Untouched P T i r s)
    (hmay : T.admits i r s) :
    Serves P T i r (fun res t => Outcome T i r (errorReply res) t) (handleFetch P i r) s := by
  have hmays := fun t hg => hT.admits_grows i r s t hg hmay
  cases r with
  | createVault userId body =>
    refine serves_authorized (fun t user hrely _ => ?_)
    refine serves_createVault hT user body rfl ?_ (hrely.unused hs.unused)
    intro m _ _ _ hr
    cases hr
  | uploadSnapshot userId vaultId body =>
    refine serves_authorized (fun t user hrely huser => ?_)
    exact serves_uploadSnapshot hT (hrely.unused hs.unused) (by rw [huser])
  | uploadCommit userId vaultId upload =>
    refine Serves.bind (serves_assertUserActive ?_ ?_)
    · intro t user hrely huser hactive
      subst huser
      exact Serves.returned (serves_uploadCommit hT (hrely.untouched hs) rfl
        (hmays t hrely.grows) hactive.hasUser)
    · intro t hrely hno
      exact Serves.thrown (.denied t (.refl t) (hmays t hrely.grows) (by decide)
        (fun hok => hno hok.1))
  | pullCommits userId vaultId afterSeq limit =>
    refine Serves.bind (serves_assertUserActive ?_ ?_)
    · intro t user _ huser _
      subst huser
      exact Serves.returned (serves_pullCommits rfl)
    · intro t _ _
      exact Serves.thrown .failed
  | bootstrap userId vaultId =>
    refine Serves.bind (serves_assertUserActive ?_ ?_)
    · intro t user _ huser _
      subst huser
      exact Serves.returned (serves_bootstrap rfl)
    · intro t _ _
      exact Serves.thrown .failed
  | listVaults userId => exact serves_authorized (fun _ user _ _ => serves_listVaults user)
  | getVault userId vaultId =>
    exact serves_authorized (fun _ user _ _ => serves_getVault user vaultId)
  | openEvents userId vaultId upgrade =>
    exact serves_authorized (fun _ user _ _ => serves_openEvents user vaultId upgrade)
  | createRoom userId body =>
    exact serves_authorized (fun _ user _ _ => serves_createRoom hT user body rfl)
  | joinRoom userId roomId =>
    exact serves_authorized (fun _ user _ _ => serves_joinRoom user roomId)
  | roomToken userId roomId scope =>
    exact serves_authorized (fun _ user _ _ => serves_roomToken user roomId scope)

/-- Every request is safe among any others, and its answer says what the state bears out. -/
theorem verified (hT : Settled T) : Verified (syncService P) (growth P T) (Outcome T) where
  stable _ _ _ _ _ hrely ho := hrely.grows.outcome ho
  crash i r s hfaulty := by
    cases r with
    | uploadCommit userId vaultId upload => exact .failed hfaulty
    | pullCommits userId vaultId afterSeq limit => exact .failed
    | bootstrap userId vaultId => exact .failed
    | _ => trivial
  start i r s _ hunborn hmay :=
    Safe.bind (Safe.mono (serves_handleFetch hT hunborn hmay) (fun _ _ h => h))

end Seance.Sync
