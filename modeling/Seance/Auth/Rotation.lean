import Seance.Auth.Sample
import Seance.Auth.Statements

namespace Seance.Auth
open Lib

variable {J N : Type}

def Store.HasHash (s : Store J) (hash : String) : Prop :=
  ∃ r ∈ s.sessions.rows, r.refreshTokenHash = hash

/-- The session is there, and its user is not disabled. -/
def Store.HasSession (s : Store J) (sessionId : String) : Prop :=
  ∃ r u, s.sessions.find? sessionId = some r ∧ s.server.db.users.find? r.userId = some u ∧
    u.disabledAt = none

section Statements

variable {s t : Store J} {op : Op J} {a : op.Answer} {sessionId hash : String}

theorem find?_rotated {replacementHash : String} {now expiresAt : Int}
    (h : s.updateSession sessionId replacementHash now expiresAt = some t) {id : String}
    {r : SessionRow} (hr : s.sessions.find? id = some r) :
    t.sessions.find? id =
      some (if id = sessionId then r.rotated replacementHash now expiresAt else r) := by
  obtain ⟨_, rfl⟩ := updateSession_eq_some h
  refine (Table.find?_update (t := s.sessions) (fun r => r.sessionId = sessionId)
    (SessionRow.rotated replacementHash now expiresAt) (fun _ => rfl) id).trans ?_
  rw [hr, Option.map_some, Table.find?_key hr]
  simp only [decide_eq_true_eq]

theorem updateSession_of_not_hasHash (h : ¬ s.HasHash hash) {now expiresAt : Int} :
    ∃ t, s.updateSession sessionId hash now expiresAt = some t := by
  refine ⟨_, if_neg ?_⟩
  rw [Bool.and_eq_true, List.any_eq_true]
  rintro ⟨_, r, hr, hcheck⟩
  rw [Bool.and_eq_true, decide_eq_true_eq] at hcheck
  exact h ⟨r, hr, hcheck.1⟩

theorem find?_revoked {now : Int} {r : SessionRow} (hr : s.sessions.find? sessionId = some r) :
    (s.revokeSession hash now).sessions.find? sessionId =
      some (if r.refreshTokenHash = hash then { r with revokedAt := some now } else r) := by
  simp only [Store.revokeSession]
  rw [Table.find?_update, hr, Option.map_some]
  simp only [decide_eq_true_eq]

/-- The refresh token hashes tell the sessions apart. -/
theorem uniqueOn_refreshTokenHash_apply (h : op.apply s = some (a, t))
    (hs : s.sessions.UniqueOn SessionRow.refreshTokenHash) :
    t.sessions.UniqueOn SessionRow.refreshTokenHash := by
  rcases apply_sessions h with heq | ⟨row, rfl, hnone, hins⟩ | ⟨id, hash, now, exp, rfl, hup⟩ |
    ⟨hash, now, rfl, rfl⟩
  · rwa [heq]
  · exact hs.insert? hins (by simpa using List.find?_eq_none.mp hnone)
  · obtain ⟨hfree, rfl⟩ := updateSession_eq_some hup
    exact hs.update_one (f := SessionRow.rotated hash now exp) (fun _ => rfl) (fun _ => rfl) hfree
  · exact hs.update (f := fun r : SessionRow => { r with revokedAt := some now }) (fun _ => rfl)
      (fun _ => rfl)

/-- A hash is in the table only where it was before or a statement writes it. -/
theorem hasHash_apply (h : op.apply s = some (a, t)) (hnone : op.writes ≠ some hash)
    (hs : ¬ s.HasHash hash) : ¬ t.HasHash hash := by
  rintro ⟨r, hr, hhash⟩
  rcases apply_sessions h with heq | ⟨row, rfl, _, hins⟩ | ⟨id, replacement, now, exp, rfl, hup⟩ |
    ⟨revoked, now, rfl, rfl⟩
  · rw [heq] at hr
    exact hs ⟨r, hr, hhash⟩
  · rw [Table.insert?_rows hins] at hr
    rcases List.mem_append.mp hr with hr | hr
    · exact hs ⟨r, hr, hhash⟩
    · rw [List.mem_singleton.mp hr] at hhash
      exact hnone (congrArg some hhash)
  · obtain ⟨_, rfl⟩ := updateSession_eq_some hup
    obtain ⟨q, hq, rfl⟩ := List.mem_map.mp hr
    split at hhash
    · exact hnone (congrArg some hhash)
    · exact hs ⟨q, hq, hhash⟩
  · obtain ⟨q, hq, rfl⟩ := List.mem_map.mp hr
    refine hs ⟨q, hq, ?_⟩
    split at hhash <;> exact hhash

/-- A session stays its user's, and has its hash until a statement rotates it. -/
theorem session_apply (h : op.apply s = some (a, t)) {r : SessionRow}
    (hr : s.sessions.find? sessionId = some r) : ∃ q, t.sessions.find? sessionId = some q ∧
      q.userId = r.userId ∧ ((∃ replacementHash now expiresAt,
        op = .updateSession sessionId replacementHash now expiresAt ∧
        q.refreshTokenHash = replacementHash) ∨ q.refreshTokenHash = r.refreshTokenHash) := by
  rcases apply_sessions h with heq | ⟨row, rfl, _, hins⟩ | ⟨id, replacement, now, exp, rfl, hup⟩ |
    ⟨revoked, now, rfl, rfl⟩
  · exact ⟨r, heq ▸ hr, rfl, .inr rfl⟩
  · refine ⟨r, ?_, rfl, .inr rfl⟩
    obtain ⟨hfree, hfind⟩ := Table.insert?_eq_some hins
    rw [hfind, if_neg, hr]
    rintro rfl
    rw [hfree] at hr
    cases hr
  · refine ⟨_, find?_rotated hup hr, ?_, ?_⟩
    · split <;> rfl
    · split
      · rename_i hid
        subst hid
        exact .inl ⟨replacement, now, exp, rfl, rfl⟩
      · exact .inr rfl
  · refine ⟨_, find?_revoked hr, ?_, .inr ?_⟩
    · split <;> rfl
    · split <;> rfl

theorem hasSession_apply (h : op.apply s = some (a, t)) (hs : s.HasSession sessionId) :
    t.HasSession sessionId := by
  obtain ⟨r, u, hr, hu, hon⟩ := hs
  obtain ⟨q, hq, huser, _⟩ := session_apply h hr
  exact ⟨q, u, hq, huser ▸ users_apply h _ _ hu, hon⟩

end Statements

/-- The event redeems a refresh token with the hash. -/
def Redeems (E : Env J N) (p : WorkerPool J) (hash : String) (e : WorkerEvent J) : Prop :=
  (∃ token, p.request e.task = some (.refresh token) ∧ E.hash token = hash) ∧
    ∃ sessionId replacementHash now expiresAt,
      e.step.op = .updateSession sessionId replacementHash now expiresAt

/-- The next request that presents the token gets a session for it, alone and before the session
expires. -/
def Redeemable (E : Env J N) (p : WorkerPool J) (token : String) (row : SessionRow) : Prop :=
  E.nowTs p.tasks.length 0 ≤ row.expiresAt → ∃ reply s,
    (fetch E p.tasks.length (.refresh token)).alone (authService E).apply p.shared =
      (some reply, s) ∧ reply.isSession = true

/-- Every refresh token is redeemed once at most, and a replacement that was handed out is used,
or that of a revoked session, or redeemable. -/
structure Linear (E : Env J N) (p : WorkerPool J) (events : List (WorkerEvent J)) : Prop where
  once : ∀ hash, events.Pairwise (fun e f => ¬ (Redeems E p hash e ∧ Redeems E p hash f))
  live : ∀ i token accessToken replacement user, p.request i = some (.refresh token) →
    p.reply i = some (.session accessToken replacement user) →
    (∃ e ∈ events, Redeems E p (E.hash replacement) e) ∨
      ∃ row, p.shared.sessionOf (E.hash replacement) = some row ∧
        (row.revokedAt ≠ none ∨ Redeemable E p replacement row)

/-- An UPDATE of a session finds the hash in it. -/
def Op.FindsHash (s : Store J) (hash : String) : Op J → Prop
  | .updateSession sessionId _ _ _ =>
    ∀ r ∈ s.sessions.find? sessionId, r.refreshTokenHash = hash
  | _ => True

instance (s : Store J) (hash : String) : DecidablePred (Op.FindsHash s hash)
  | .updateSession _ _ _ _ => inferInstanceAs (Decidable (∀ r ∈ _, _))
  | .sync _ | .insertChallenge _ | .selectChallenge _ | .consumeChallenge _ _
  | .selectUserByEmail _ | .insertUser _ | .insertSession _ | .selectSession _
  | .revokeSession _ _ => isTrue trivial

/-- What a refresh request updates has the hash of its token still. -/
def Request.FindsToken (E : Env J N) (e : WorkerEvent J) : Request J → Prop
  | .refresh token => e.step.op.FindsHash e.pre (E.hash token)
  | _ => True

section Alone

variable {E : Env J N} {i : Nat} {s t : Store J} {row : SessionUserRow}

theorem rotateRefreshSession_alone {hash replacementHash : String} {now expiresAt : Int}
    (hrow : s.sessionUserOf hash = some row)
    (hvalid : ¬ (row.revokedAt ≠ none ∨ row.expiresAt < now ∨ row.disabledAt ≠ none))
    (hup : s.updateSession row.sessionId replacementHash now expiresAt = some t) :
    (rotateRefreshSession hash replacementHash now expiresAt).run.alone (authService E).apply s =
      (some (.ok ⟨row.userId, row.primaryEmail⟩), t) := by
  have hselect : (authService E).apply (.selectSession hash) s =
      some ((some row : Option SessionUserRow), s) := by
    rw [← hrow]
    rfl
  have hupdate : (authService E).apply (.updateSession row.sessionId replacementHash now expiresAt)
      s = some ((), t) := by
    change (s.updateSession _ _ _ _).map _ = _
    rw [hup]
    rfl
  refine (Proc.alone_await_of_some hselect).trans ?_
  change Proc.alone _ (ExceptT.run (if row.revokedAt ≠ none ∨ row.expiresAt < now ∨
    row.disabledAt ≠ none then _ else _)) s = _
  rw [if_neg hvalid]
  exact Proc.alone_await_of_some hupdate

/-- A refresh request alone, with the token of a session that is neither revoked nor expired. -/
theorem rotateSession_alone {token : String} (hconfigured : Configured E)
    (hrow : s.sessionUserOf (E.hash token) = some row) (hrevoked : row.revokedAt = none)
    (hon : row.disabledAt = none) (hexpires : E.nowTs i 0 ≤ row.expiresAt)
    (hup : ∀ expiresAt, ∃ t, s.updateSession row.sessionId (E.hash (E.randomToken i))
      (E.nowTs i 0) expiresAt = some t) :
    ∃ reply t, (fetch E i (.refresh token)).alone (authService E).apply s = (some reply, t) ∧
      reply.isSession = true := by
  obtain ⟨⟨refreshTtl, hrefresh⟩, ⟨accessTtl, haccess⟩, key, hkey⟩ := hconfigured
  obtain ⟨t, ht⟩ := hup (E.nowTs i 0 + refreshTtl)
  have hvalid : ¬ (row.revokedAt ≠ none ∨ row.expiresAt < E.nowTs i 0 ∨ row.disabledAt ≠ none) := by
    rw [hrevoked, hon]
    simpa using hexpires
  have hrotate : (rotateRefreshSession (E.hash token) (E.hash (E.randomToken i)) (E.nowTs i 0)
      (E.nowTs i 0 + refreshTtl) >>= fun user => (pure (.session (sign E (accessPayload E user
        (E.randomUUID i 0) (E.nowTs i 0) (E.nowTs i 0 + accessTtl)) key) (E.randomToken i) user) :
          Handler J (Reply J))).run.alone (authService E).apply s = _ :=
    Proc.alone_except_bind _ _
  rw [rotateRefreshSession_alone hrow hvalid ht] at hrotate
  refine ⟨.session (sign E (accessPayload E ⟨row.userId, row.primaryEmail⟩ (E.randomUUID i 0)
    (E.nowTs i 0) (E.nowTs i 0 + accessTtl)) key) (E.randomToken i)
    ⟨row.userId, row.primaryEmail⟩, t, ?_, rfl⟩
  simp only [fetch, handleFetch, rotateSession, hrefresh, haccess, hkey]
  refine (Proc.alone_bind _ _).trans ?_
  erw [hrotate]
  rfl

end Alone

instance (E : Env J N) (e : WorkerEvent J) : DecidablePred (Request.FindsToken E e)
  | .refresh _ => inferInstanceAs (Decidable (Op.FindsHash _ _ _))
  | .start _ _ _ | .verify _ | .logout _ | .api _ _ => isTrue trivial

section Runs

variable {E : Env J N} {users : Table Sync.UserRow.userId} {turns : List (Turn (Request J))}
variable {s t : Store J} {es : List (WorkerEvent J)} {hash : String}

theorem uniqueOn_refreshTokenHash_linked (h : Linked (authService E).apply (Store.empty users) es s) :
    s.sessions.UniqueOn SessionRow.refreshTokenHash :=
  h.keeps (R := fun s : Store J => s.sessions.UniqueOn SessionRow.refreshTokenHash)
    Table.uniqueOn_empty (fun _ _ happly hs => uniqueOn_refreshTokenHash_apply happly hs)

theorem not_hasHash_linked (h : Linked (authService E).apply s es t)
    (hnone : ∀ e ∈ es, e.step.op.writes ≠ some hash) (hs : ¬ s.HasHash hash) :
    ¬ t.HasHash hash :=
  h.keeps (R := fun s : Store J => ¬ s.HasHash hash) hs
    (fun e he happly hs => hasHash_apply happly (hnone e he) hs)

/-- A hash in the table was written by a statement of the run. -/
theorem written_of_hasHash (h : Linked (authService E).apply (Store.empty users) es s)
    (hs : s.HasHash hash) : ∃ e ∈ es, e.step.op.writes = some hash := by
  by_contra hno
  push Not at hno
  refine not_hasHash_linked h hno ?_ hs
  rintro ⟨r, ⟨⟩, _⟩

variable {before after : List (WorkerEvent J)} {e : WorkerEvent J}

/-- Before a session's hash is rotated, the session was read by the hash of the token. -/
theorem selected_before (h : eventsAfter E users turns = before ++ e :: after)
    {sessionId replacementHash : String} {now expiresAt : Int}
    (hop : e.step.op = .updateSession sessionId replacementHash now expiresAt) :
    ∃ token first c mid, (workerAfter E users turns).request e.task = some (.refresh token) ∧
      before = first ++ c :: mid ∧ Linked (authService E).apply c.post mid e.pre ∧
      c.post.HasSession sessionId ∧
      ∃ r, c.post.sessions.find? sessionId = some r ∧ r.refreshTokenHash = E.hash token := by
  obtain ⟨r, hr, hallowed⟩ := (traced_after E users turns).taken before e after h
  rw [hop] at hallowed
  obtain ⟨_, _, token, row, rfl, hselect, rfl, hon⟩ := hallowed
  obtain ⟨c, hc, _, hstep⟩ := mem_stepsOf.mp hselect
  obtain ⟨first, mid, rfl⟩ := List.append_of_mem hc
  have hlinked := linked_after E users turns
  rw [h] at hlinked
  obtain ⟨_, happly, hmid⟩ := linked_middle (linked_middle hlinked).1
  obtain ⟨hrow, hpost⟩ := Prod.mk.inj (Option.some.inj (applied_step hstep happly))
  obtain ⟨q, hq, hrow⟩ := Option.bind_eq_some_iff.mp hrow
  obtain ⟨u, hu, rfl⟩ := Option.map_eq_some_iff.mp hrow
  have hqhash : q.refreshTokenHash = E.hash token := by simpa using List.find?_some hq
  have hqid : c.post.sessions.find? q.sessionId = some q := by
    rw [← hpost]
    exact Table.find?_of_mem (List.mem_of_find?_eq_some hq)
  refine ⟨token, first, c, mid, hr, rfl, hmid, ⟨q, u, hqid, ?_, hon⟩, q, hqid, hqhash⟩
  rw [← hpost]
  exact hu

/-- What a guarded UPDATE of a session finds and leaves. -/
theorem rotated_of_findsToken (h : eventsAfter E users turns = before ++ e :: after)
    {token sessionId replacementHash : String} {now expiresAt : Int}
    (hop : e.step.op = .updateSession sessionId replacementHash now expiresAt)
    (hfinds : (Request.refresh token : Request J).FindsToken E e) :
    ∃ r, e.pre.sessions.find? sessionId = some r ∧ r.refreshTokenHash = E.hash token := by
  obtain ⟨_, _, _, _, _, _, hmid, hsession, _⟩ := selected_before h hop
  obtain ⟨r, _, hfind, _, _⟩ := hmid.keeps
    (R := fun s : Store J => s.HasSession sessionId) hsession
    (fun _ _ happly hs => hasSession_apply happly hs)
  rw [Request.FindsToken, hop] at hfinds
  exact ⟨r, hfind, hfinds r hfind⟩

/-- A token that has been redeemed is in the table no more. -/
theorem not_hasHash_of_redeemed (h : eventsAfter E users turns = before ++ e :: after)
    {token sessionId replacementHash : String} {now expiresAt : Int}
    (hop : e.step.op = .updateSession sessionId replacementHash now expiresAt)
    (hfinds : (Request.refresh token : Request J).FindsToken E e) :
    ¬ e.post.HasHash (E.hash token) := by
  have hlinked := linked_after E users turns
  rw [h] at hlinked
  obtain ⟨hbefore, happly, _⟩ := linked_middle hlinked
  obtain ⟨r, hfind, hhash⟩ := rotated_of_findsToken h hop hfinds
  obtain ⟨w, hw, hwrites⟩ := written_of_hasHash hbefore ⟨r, Table.mem_of_find? hfind, hhash⟩
  -- the replacement is another token, since the session's own was written by another request
  have hne : replacementHash ≠ E.hash token := by
    obtain ⟨first, mid, rfl⟩ := List.append_of_mem hw
    rintro rfl
    exact writes_apart h hwrites (by rw [hop]; rfl)
  obtain ⟨_, hupdate⟩ := applied_op hop happly
  obtain ⟨_, hup, he⟩ := Option.map_eq_some_iff.mp hupdate
  cases he
  obtain ⟨_, hpost⟩ := updateSession_eq_some hup
  rintro ⟨q, hq, hqhash⟩
  rw [← hpost] at hq
  obtain ⟨q', hq', rfl⟩ := List.mem_map.mp hq
  split at hqhash
  · exact hne hqhash
  · rename_i hid
    have heq := uniqueOn_refreshTokenHash_linked hbefore q' hq' r (Table.mem_of_find? hfind)
      (hqhash.trans hhash.symm)
    rw [heq] at hid
    exact hid (decide_eq_true (Table.find?_key hfind))

theorem redeems_once (hfinds : ∀ e ∈ eventsAfter E users turns,
    ∀ r ∈ (workerAfter E users turns).request e.task, r.FindsToken E e) (hash : String) :
    (eventsAfter E users turns).Pairwise (fun e f =>
      ¬ (Redeems E (workerAfter E users turns) hash e ∧
        Redeems E (workerAfter E users turns) hash f)) := by
  refine pairwise_of_cut ?_
  rintro first e mid f last h ⟨⟨⟨token, hr, rfl⟩, id, replacement, now, exp, hop⟩,
    ⟨token', hr', hhash⟩, id', replacement', now', exp', hop'⟩
  have hcut : eventsAfter E users turns = first ++ e :: (mid ++ f :: last) := by simp [h]
  have hgone := not_hasHash_of_redeemed hcut hop (hfinds e (by rw [hcut]; simp) _ hr)
  have hlinked := linked_after E users turns
  rw [hcut] at hlinked
  obtain ⟨hbefore, _, hrest⟩ := linked_middle hlinked
  obtain ⟨r, hfind, hrhash⟩ := rotated_of_findsToken hcut hop (hfinds e (by rw [hcut]; simp) _ hr)
  obtain ⟨w, hw, hwrites⟩ := written_of_hasHash hbefore ⟨r, Table.mem_of_find? hfind, hrhash⟩
  -- the statement that has given the session its token is behind, and none gives it again
  have hnone : ∀ d ∈ mid, d.step.op.writes ≠ some (E.hash token) := by
    intro d hd
    obtain ⟨x, y, rfl⟩ := List.append_of_mem hw
    obtain ⟨x', y', rfl⟩ := List.append_of_mem hd
    have hcut' : eventsAfter E users turns = x ++ w :: (y ++ e :: x') ++ d :: (y' ++ f :: last) := by
      simp [h]
    exact writes_apart hcut' hwrites
  obtain ⟨q, hq, hqhash⟩ := rotated_of_findsToken h hop' (hfinds f (by rw [h]; simp) _ hr')
  exact not_hasHash_linked (linked_middle hrest).1 hnone hgone
    ⟨q, Table.mem_of_find? hq, hqhash.trans hhash⟩

/-- No session has the random token of a request that is still to come. -/
theorem not_hasHash_next : ¬ (workerAfter E users turns).shared.HasHash
    (E.hash (E.randomToken (workerAfter E users turns).tasks.length)) := by
  intro hhash
  obtain ⟨w, hw, hwrites⟩ := written_of_hasHash (linked_after E users turns) hhash
  obtain ⟨first, last, hcut⟩ := List.append_of_mem hw
  have htask := E.hash_randomToken_inj (writes_own hcut hwrites).1
  have hlt := (traced_after E users turns).started w hw
  omega

/-- A replacement that nobody has used is its session's token still. -/
theorem holds_replacement (hfinds : ∀ e ∈ eventsAfter E users turns,
    ∀ r ∈ (workerAfter E users turns).request e.task, r.FindsToken E e)
    (h : eventsAfter E users turns = before ++ e :: after)
    {sessionId replacementHash : String} {now expiresAt : Int}
    (hop : e.step.op = .updateSession sessionId replacementHash now expiresAt)
    (hunused : ∀ f ∈ eventsAfter E users turns,
      ¬ Redeems E (workerAfter E users turns) replacementHash f) :
    ∃ r u, (workerAfter E users turns).shared.sessions.find? sessionId = some r ∧
      r.refreshTokenHash = replacementHash ∧
      (workerAfter E users turns).shared.server.db.users.find? r.userId = some u ∧
      u.disabledAt = none := by
  have hlinked := linked_after E users turns
  rw [h] at hlinked
  obtain ⟨_, happly, hafter⟩ := linked_middle hlinked
  obtain ⟨_, _, _, _, _, _, hmid, hsession, _⟩ := selected_before h hop
  obtain ⟨r, u, hr, hu, hon⟩ := hmid.keeps (R := fun s : Store J => s.HasSession sessionId)
    hsession (fun _ _ happly hs => hasSession_apply happly hs)
  have husers := users_apply happly
  obtain ⟨_, hupdate⟩ := applied_op hop happly
  refine hafter.keeps (R := fun s : Store J => ∃ r u, s.sessions.find? sessionId = some r ∧
    r.refreshTokenHash = replacementHash ∧ s.server.db.users.find? r.userId = some u ∧
    u.disabledAt = none) ?_ ?_
  · obtain ⟨_, hup, he⟩ := Option.map_eq_some_iff.mp hupdate
    cases he
    refine ⟨_, u, find?_rotated hup hr, ?_, ?_, hon⟩
    · rw [if_pos rfl]
      rfl
    · rw [if_pos rfl]
      exact husers _ _ hu
  · intro f hf happly ⟨q, v, hq, hqhash, hv, hvon⟩
    obtain ⟨q', hq', huser, hrotated | hsame⟩ := session_apply happly hq
    · -- whoever rotates the session has presented the replacement
      obtain ⟨replacement, now', exp', hfop, _⟩ := hrotated
      obtain ⟨first, last, rfl⟩ := List.append_of_mem hf
      have hcut : eventsAfter E users turns = (before ++ e :: first) ++ f :: last := by simp [h]
      obtain ⟨token, _, _, _, hfr, _⟩ := selected_before hcut hfop
      have hguard := hfinds f (by rw [hcut]; simp) _ hfr
      rw [Request.FindsToken, hfop] at hguard
      refine absurd ⟨⟨token, hfr, ?_⟩, sessionId, replacement, now', exp', hfop⟩
        (hunused f (by rw [hcut]; simp))
      exact (hguard q hq).symm.trans hqhash
    · exact ⟨q', v, hq', hsame.trans hqhash, huser ▸ users_apply happly _ _ hv, hvon⟩

theorem live_of_findsToken (hfinds : ∀ e ∈ eventsAfter E users turns,
    ∀ r ∈ (workerAfter E users turns).request e.task, r.FindsToken E e)
    {i : Nat} {token accessToken replacement : String} {user : Sync.AuthenticatedUser}
    (hr : (workerAfter E users turns).request i = some (.refresh token))
    (hreply : (workerAfter E users turns).reply i =
      some (.session accessToken replacement user)) :
    (∃ e ∈ eventsAfter E users turns,
      Redeems E (workerAfter E users turns) (E.hash replacement) e) ∨
    ∃ row, (workerAfter E users turns).shared.sessionOf (E.hash replacement) = some row ∧
      (row.revokedAt ≠ none ∨ Redeemable E (workerAfter E users turns) replacement row) := by
  by_cases hused : ∃ e ∈ eventsAfter E users turns,
      Redeems E (workerAfter E users turns) (E.hash replacement) e
  · exact .inl hused
  push Not at hused
  right
  have htraced := traced_after E users turns
  rcases htraced.replied hr hreply with hanswered | hcrash
  · obtain ⟨_, rfl, hconfigured, ⟨_, _, he, _⟩ | ⟨_, row, now, exp, _, _, _, hupdate⟩⟩ := hanswered
    · cases he
    obtain ⟨e, he, _, hstep⟩ := mem_stepsOf.mp hupdate
    obtain ⟨before, after, hcut⟩ := List.append_of_mem he
    obtain ⟨q, u, hq, hqhash, hu, hon⟩ := holds_replacement hfinds hcut (by rw [hstep]) hused
    have hlinked := linked_after E users turns
    have hsession : (workerAfter E users turns).shared.sessionOf (E.hash (E.randomToken i)) =
        some q := by
      rw [← hqhash]
      exact (uniqueOn_refreshTokenHash_linked hlinked).find?_of_mem (Table.mem_of_find? hq)
    refine ⟨q, hsession, ?_⟩
    by_cases hrevoked : q.revokedAt = none
    · right
      intro hexpires
      have hrow : (workerAfter E users turns).shared.sessionUserOf (E.hash (E.randomToken i)) =
          some ⟨q.sessionId, q.userId, q.refreshTokenHash, q.issuedAt, q.expiresAt, q.revokedAt,
            u.primaryEmail, u.disabledAt⟩ := by
        rw [Store.sessionUserOf, hsession, Option.bind_some, hu, Option.map_some]
      refine rotateSession_alone hconfigured hrow hrevoked hon hexpires ?_
      · intro expiresAt
        exact updateSession_of_not_hasHash not_hasHash_next
    · exact .inl hrevoked
  · cases hcrash

/-- Where no token is redeemed twice, an UPDATE finds the token that its request has read. -/
theorem findsHash_of_once (honce : ∀ hash, (eventsAfter E users turns).Pairwise (fun e f =>
      ¬ (Redeems E (workerAfter E users turns) hash e ∧
        Redeems E (workerAfter E users turns) hash f)))
    (h : eventsAfter E users turns = before ++ e :: after) {token : String}
    (hr : (workerAfter E users turns).request e.task = some (.refresh token))
    {sessionId replacementHash : String} {now expiresAt : Int}
    (hop : e.step.op = .updateSession sessionId replacementHash now expiresAt) {r : SessionRow}
    (hfind : e.pre.sessions.find? sessionId = some r) : r.refreshTokenHash = E.hash token := by
  induction hn : before.length using Nat.strong_induction_on generalizing before e after token
    sessionId replacementHash now expiresAt r with
  | _ n ih =>
    obtain ⟨_, first, c, mid, hr', rfl, hmid, _, q, hq, hqhash⟩ := selected_before h hop
    rw [hr] at hr'
    cases hr'
    -- every UPDATE since the session was read would have redeemed the token before
    have hkept : ∃ q, e.pre.sessions.find? sessionId = some q ∧
        q.refreshTokenHash = E.hash token := by
      refine hmid.keeps (R := fun s : Store J => ∃ q, s.sessions.find? sessionId = some q ∧
        q.refreshTokenHash = E.hash token) ⟨q, hq, hqhash⟩ ?_
      intro f hf happly ⟨q, hq, hqhash⟩
      obtain ⟨q', hq', _, hrotated | hsame⟩ := session_apply happly hq
      · obtain ⟨replacement, now', exp', hfop, _⟩ := hrotated
        obtain ⟨x, y, rfl⟩ := List.append_of_mem hf
        have hcut : eventsAfter E users turns =
            (first ++ c :: x) ++ f :: (y ++ e :: after) := by simp [h]
        obtain ⟨text, _, _, _, hfr, _⟩ := selected_before hcut hfop
        have hlt : (first ++ c :: x).length < n := by
          rw [← hn]
          simp
        have hfinds := ih _ hlt hcut hfr hfop hq rfl
        have hpair := honce (E.hash token)
        rw [hcut, List.pairwise_append] at hpair
        have hnot := (List.pairwise_cons.mp hpair.2.1).1 e (by simp)
        exact absurd ⟨⟨⟨text, hfr, hfinds.symm.trans hqhash⟩, _, _, _, _, hfop⟩,
          ⟨token, hr, rfl⟩, _, _, _, _, hop⟩ hnot
      · exact ⟨q', hq', hsame.trans hqhash⟩
    obtain ⟨q', hq', hqhash'⟩ := hkept
    rw [hfind] at hq'
    cases hq'
    exact hqhash'

theorem findsToken_of_once (honce : ∀ hash, (eventsAfter E users turns).Pairwise (fun e f =>
      ¬ (Redeems E (workerAfter E users turns) hash e ∧
        Redeems E (workerAfter E users turns) hash f))) :
    ∀ e ∈ eventsAfter E users turns, ∀ r ∈ (workerAfter E users turns).request e.task,
      r.FindsToken E e := by
  intro e he r hr
  obtain ⟨before, after, hcut⟩ := List.append_of_mem he
  cases r with
  | refresh token =>
    cases hop : e.step.op with
    | updateSession sessionId replacementHash now expiresAt =>
      rw [Request.FindsToken, hop]
      intro row hrow
      exact findsHash_of_once honce hcut hr hop hrow
    | _ =>
      rw [Request.FindsToken, hop]
      trivial
  | _ => trivial

/-- Refresh tokens are linear exactly in the runs where each UPDATE of a session finds the hash of
the token that its request has presented. -/
theorem rotation_linear_iff (E : Env J N) (users : Table Sync.UserRow.userId)
    (turns : List (Turn (Request J))) :
    Linear E (workerAfter E users turns) (eventsAfter E users turns) ↔
      ∀ e ∈ eventsAfter E users turns, ∀ r ∈ (workerAfter E users turns).request e.task,
        r.FindsToken E e := by
  constructor
  · intro h
    exact findsToken_of_once h.once
  · intro hfinds
    exact ⟨redeems_once hfinds, fun _ _ _ _ _ hr hreply => live_of_findsToken hfinds hr hreply⟩

end Runs

section Example
open Sample

/-- Two refreshes of the token of a session that both read it before either rotates it. -/
def refreshedTwice : List (Turn (Request Unit)) :=
  verified ++
    [.arrive (.refresh (env.randomToken 1)), .arrive (.refresh (env.randomToken 1)),
      .serve 2 .intact, .serve 3 .intact, .serve 2 .intact, .serve 3 .intact]

/-- Both refreshes are answered with a session, and the token of the first is worth nothing. -/
theorem refresh_twice :
    (∃ reply ∈ (workerAfter env Sync.Sample.users refreshedTwice).reply 2, reply.isSession = true) ∧
    (∃ reply ∈ (workerAfter env Sync.Sample.users refreshedTwice).reply 3, reply.isSession = true) ∧
    (workerAfter env Sync.Sample.users refreshedTwice).shared.sessionOf
      (env.hash (env.randomToken 2)) = none ∧
    ¬ Linear env (workerAfter env Sync.Sample.users refreshedTwice)
      (eventsAfter env Sync.Sample.users refreshedTwice) := by
  refine ⟨by decide +kernel, by decide +kernel, by decide +kernel, ?_⟩
  intro h
  have hfinds := findsToken_of_once h.once
  revert hfinds
  decide +kernel

end Example

end Seance.Auth
