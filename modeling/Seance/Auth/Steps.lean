import Seance.Auth.Handlers

namespace Seance.Auth
open Lib

variable {J N : Type}

abbrev Steps (J : Type) := List (Step (Op.Answer (J := J)))

/-- The refresh token hash that a statement gives a session. -/
def Op.writes : Op J → Option String
  | .insertSession row => some row.refreshTokenHash
  | .updateSession _ replacementHash _ _ => some replacementHash
  | _ => none

section Rules

variable (E : Env J N) (i : Nat) (r : Request J) (steps : Steps J)

/-- The hash that a magic link's token is looked up by. -/
def Env.linkHash (token : String) : String := E.hash (String.ofList (trim token.toList))

/-- The request has read the challenge and consumed it. -/
def Spent (token : String) (challenge : ChallengeRow) : Prop :=
  (⟨.selectChallenge (E.linkHash token), some challenge⟩ : Step Op.Answer) ∈ steps ∧
    ∃ now, (⟨.consumeChallenge challenge.challengeId now, ()⟩ : Step Op.Answer) ∈ steps

/-- When a request sends a statement that changes the tables of the sign-in. -/
def Allowed : Op J → Prop
  | .consumeChallenge challengeId _ => ∃ token challenge, r = .verify token ∧
      (⟨.selectChallenge (E.linkHash token), some challenge⟩ : Step Op.Answer) ∈ steps ∧
      challenge.challengeId = challengeId
  | .insertSession row => (∀ st ∈ steps, st.op.writes = none) ∧
      row.refreshTokenHash = E.hash (E.randomToken i) ∧
      ∃ token challenge, r = .verify token ∧ Spent E steps token challenge
  | .updateSession sessionId replacementHash _ _ => (∀ st ∈ steps, st.op.writes = none) ∧
      replacementHash = E.hash (E.randomToken i) ∧ ∃ token row, r = .refresh token ∧
      (⟨.selectSession (E.hash token), some row⟩ : Step Op.Answer) ∈ steps ∧
      row.sessionId = sessionId ∧ row.disabledAt = none
  | _ => True

/-- The variables that every session needs. -/
structure Configured : Prop where
  refreshTtl : ∃ ttl, ttlFromEnv E.refreshTtl "REFRESH_TOKEN_TTL_SECONDS" = .ok ttl
  accessTtl : ∃ ttl, ttlFromEnv E.accessTtl "ACCESS_TOKEN_TTL_SECONDS" = .ok ttl
  signingKey : ∃ key, secretFromEnv E.signingKey = .ok key

def IsAccessToken (token : String) : Prop := ∃ key user sid iat exp,
  secretFromEnv E.signingKey = .ok key ∧ token = sign E (accessPayload E user sid iat exp) key

def IsRoomToken (token : String) : Prop := ∃ key p,
  secretFromEnv E.signingKey = .ok key ∧ token = sign E (roomPayload E p) key

/-- What a request has done by the time it answers with tokens. -/
def Answered : Reply J → Prop
  | .session accessToken refreshToken _ => IsAccessToken E accessToken ∧
      refreshToken = E.randomToken i ∧ Configured E ∧
      ((∃ token row, r = .verify token ∧
        (⟨.insertSession row, ()⟩ : Step Op.Answer) ∈ steps) ∨
      ∃ token row now expiresAt, r = .refresh token ∧
        (⟨.selectSession (E.hash token), some row⟩ : Step Op.Answer) ∈ steps ∧
        row.disabledAt = none ∧ (⟨.updateSession row.sessionId (E.hash (E.randomToken i)) now
          expiresAt, ()⟩ : Step Op.Answer) ∈ steps)
  | .api (.roomToken _ token _ _) => IsRoomToken E token
  | _ => True

end Rules

section Handlers

variable {E : Env J N} {i : Nat} {r : Request J} {steps : Steps J} {α β : Type}
variable {φ : Steps J → Op J → Prop} {ψ : Steps J → Except Sync.Failure α → Prop}

theorem answered_error (e : Sync.Failure) : Answered E i r steps (errorReply (.error e)) := by
  cases e <;> trivial

theorem keeps_perform {op : Op J} {f : op.Answer → Handler J α} (hφ : φ steps op)
    (h : ∀ a, (f a).run.Keeps φ ψ (steps ++ [⟨op, a⟩])) :
    (perform op >>= f).run.Keeps φ ψ steps := ⟨hφ, h⟩

theorem keeps_check {x : Except Sync.Failure β} {f : β → Handler J α}
    (hok : ∀ b, x = .ok b → (f b).run.Keeps φ ψ steps)
    (herr : ∀ e, ψ steps (.error e)) : (check x >>= f).run.Keeps φ ψ steps := by
  cases x with
  | ok b => exact hok b rfl
  | error e => exact herr e

theorem keeps_consumeMagicLinkChallenge {token : String} (hr : r = .verify token) (now : Int) :
    (consumeMagicLinkChallenge (E.linkHash token) now).run.Keeps (Allowed E i r)
      (fun steps res => ∀ row, res = .ok row → Spent E steps token row ∧
        ∀ st ∈ steps, st.op.writes = none) [] := by
  refine keeps_perform trivial ?_
  intro row
  cases row with
  | none =>
    rintro _ ⟨⟩
  | some row =>
    dsimp only
    split
    · rintro _ ⟨⟩
    split
    · rintro _ ⟨⟩
    refine keeps_perform ⟨token, row, hr, by simp, rfl⟩ ?_
    rintro ⟨⟩ _ ⟨⟩
    refine ⟨⟨by simp, now, by simp⟩, ?_⟩
    intro st hst
    simp only [List.nil_append, List.singleton_append, List.mem_cons, List.not_mem_nil,
      or_false] at hst
    rcases hst with rfl | rfl <;> rfl

theorem keeps_getOrCreateUser {email : String} (hfree : ∀ st ∈ steps, st.op.writes = none) :
    (getOrCreateUser E i email).run.Keeps (Allowed E i r)
      (fun later res => ∀ user, res = .ok user → steps ⊆ later ∧
        ∀ st ∈ later, st.op.writes = none) steps := by
  have hmore : ∀ (op : Op J) (a : op.Answer), op.writes = none →
      steps ⊆ steps ++ [⟨op, a⟩] ∧ ∀ st ∈ steps ++ [⟨op, a⟩], st.op.writes = none := by
    intro op a hop
    refine ⟨List.subset_append_left _ _, ?_⟩
    intro st hst
    rcases List.mem_append.mp hst with hst | hst
    · exact hfree st hst
    · rw [List.mem_singleton.mp hst]
      exact hop
  refine keeps_perform trivial ?_
  intro existing
  cases existing with
  | some row =>
    dsimp only
    split
    · rintro _ ⟨⟩
    · intro user _
      exact hmore _ _ rfl
  | none =>
    refine keeps_perform trivial ?_
    intro a user _
    obtain ⟨hsub, hnone⟩ := hmore (.selectUserByEmail email) (none : Option Sync.UserRow) rfl
    refine ⟨fun st hst => List.mem_append_left _ (hsub hst), ?_⟩
    intro st hst
    rcases List.mem_append.mp hst with hst | hst
    · exact hnone st hst
    · rw [List.mem_singleton.mp hst]
      rfl

theorem keeps_issueSession {token : String} {challenge : ChallengeRow} {user : Sync.AuthenticatedUser}
    {issuedAt : Int} (hr : r = .verify token) (hspent : Spent E steps token challenge)
    (hfree : ∀ st ∈ steps, st.op.writes = none) :
    (issueSession E i user issuedAt).run.Keeps (Allowed E i r)
      (fun later res => ∀ pair, res = .ok pair →
        Answered E i r later (.session pair.1 pair.2 user)) steps := by
  refine keeps_check ?_ (by rintro _ _ ⟨⟩)
  intro accessTtl haccess
  refine keeps_check ?_ (by rintro _ _ ⟨⟩)
  intro refreshTtl hrefresh
  refine keeps_perform ⟨hfree, rfl, token, challenge, hr, hspent⟩ ?_
  intro a
  refine keeps_check ?_ (by rintro _ _ ⟨⟩)
  intro key hkey pair he
  rw [← Except.ok.inj he]
  refine ⟨⟨key, user, _, _, _, hkey, rfl⟩, rfl, ⟨⟨_, hrefresh⟩, ⟨_, haccess⟩, ⟨key, hkey⟩⟩, ?_⟩
  exact .inl ⟨token, _, hr, List.mem_append_right _ List.mem_cons_self⟩

theorem keeps_verifyMagicLink {token : String} (hr : r = .verify token) :
    (verifyMagicLink E i token : Handler J (Reply J)).run.Keeps (Allowed E i r)
      (fun later res => Answered E i r later (errorReply res)) [] := by
  refine Proc.Keeps.except_bind ((keeps_consumeMagicLinkChallenge hr _).mono ?_)
  intro steps res hres
  refine ⟨fun challenge he => ?_, fun e _ => answered_error e⟩
  obtain ⟨hspent, hfree⟩ := hres challenge he
  refine Proc.Keeps.except_bind ((keeps_getOrCreateUser hfree).mono ?_)
  intro later res hres
  refine ⟨fun user he => ?_, fun e _ => answered_error e⟩
  obtain ⟨hsub, hfree'⟩ := hres user he
  have hspent' : Spent E later token challenge :=
    ⟨hsub hspent.1, hspent.2.imp (fun _ h => hsub h)⟩
  refine Proc.Keeps.except_bind ((keeps_issueSession hr hspent' hfree').mono ?_)
  intro last res hres
  refine ⟨fun pair he => ?_, fun e _ => answered_error e⟩
  exact hres pair he

theorem keeps_rotateSession {token : String} (hr : r = .refresh token) :
    (rotateSession E i token : Handler J (Reply J)).run.Keeps (Allowed E i r)
      (fun later res => Answered E i r later (errorReply res)) [] := by
  refine keeps_check ?_ answered_error
  intro refreshTtl hrefresh
  refine Proc.Keeps.except_bind (keeps_perform trivial ?_)
  intro row
  cases row with
  | none => exact ⟨by rintro _ ⟨⟩, fun e _ => answered_error e⟩
  | some row =>
    dsimp only
    split
    · exact ⟨by rintro _ ⟨⟩, fun e _ => answered_error e⟩
    rename_i hvalid
    push Not at hvalid
    refine keeps_perform ⟨?_, rfl, token, row, hr, List.mem_cons_self, rfl, hvalid.2.2⟩ ?_
    · rintro st hst
      rw [List.mem_singleton.mp hst]
      rfl
    intro a
    refine ⟨?_, fun e _ => answered_error e⟩
    rintro user ⟨⟩
    refine keeps_check ?_ answered_error
    intro accessTtl haccess
    refine keeps_check ?_ answered_error
    intro key hkey
    refine ⟨⟨key, _, _, _, _, hkey, rfl⟩, rfl, ⟨⟨_, hrefresh⟩, ⟨_, haccess⟩, ⟨key, hkey⟩⟩, .inr ?_⟩
    exact ⟨token, row, _, _, hr, by simp, hvalid.2.2, List.mem_append_right _ List.mem_cons_self⟩

/-- The room token of an answer is one that the platform has signed. -/
def SignedBy (P : Sync.Platform J) : Except Sync.Failure (Sync.Reply J) → Prop
  | .ok (.roomToken _ token _ _) => ∃ p, token = P.signRoomToken p
  | _ => True

/-- Only the token route answers with a room token. -/
theorem signed_routeOf (P : Sync.Platform J) (route : Sync.Request J)
    (user : Sync.AuthenticatedUser) (steps : List (Step Sync.Op.Answer)) :
    (Sync.routeOf P i route user).run.Keeps (fun _ _ => True) (fun _ => SignedBy P) steps := by
  have herr : ∀ e, SignedBy P (.error e) := fun _ => trivial
  cases route with
  | createVault userId body =>
    simp only [Sync.routeOf, Sync.createVault]
    split
    · trivial
    · refine Proc.Keeps.answers (fun _ _ => Proc.Keeps.answers (fun _ _ => ?_) herr) herr
      exact Proc.Keeps.answers (fun _ _ => trivial) herr
  | uploadSnapshot userId vaultId body =>
    refine Proc.Keeps.answers (fun vault _ => ?_) herr
    split
    · trivial
    · refine Proc.Keeps.answers (fun _ _ => Proc.Keeps.answers (fun _ _ => ?_) herr) herr
      exact Proc.Keeps.answers (fun _ _ => trivial) herr
  | uploadCommit userId vaultId upload =>
    refine Proc.Keeps.answers (fun vault steps => Proc.Keeps.bind ?_) herr
    refine Proc.Keeps.mono (ψ := fun _ => SignedBy P) ?_ ?_
    · simp only [Sync.appendCommit]
      split
      · trivial
      split
      · trivial
      split
      · trivial
      refine Proc.Keeps.answers (fun existing _ => ?_) herr
      cases existing with
      | some streamSeq => trivial
      | none =>
        exact Proc.Keeps.answers (fun _ _ => Proc.Keeps.answers (fun _ _ => trivial) herr) herr
    · -- what the Durable Object throws comes out as an error still
      intro _ res hres
      cases res with
      | ok reply => exact hres
      | error e => exact herr .other
  | pullCommits userId vaultId afterSeq limit =>
    refine Proc.Keeps.answers (fun _ _ => Proc.Keeps.answers (fun _ _ => ?_) herr) herr
    exact Proc.Keeps.answers (fun _ _ => trivial) herr
  | listVaults userId => exact Proc.Keeps.answers (fun _ _ => trivial) herr
  | getVault userId vaultId => exact Proc.Keeps.answers (fun _ _ => trivial) herr
  | bootstrap userId vaultId =>
    refine Proc.Keeps.answers (fun _ _ => Proc.Keeps.answers (fun _ _ => ?_) herr) herr
    refine Proc.Keeps.answers (fun object _ => ?_) herr
    cases object with
    | none => trivial
    | some snapshot =>
      refine Proc.Keeps.answers (fun _ _ => Proc.Keeps.answers (fun _ _ => ?_) herr) herr
      trivial
  | openEvents userId vaultId upgrade =>
    refine Proc.Keeps.answers (fun _ _ => ?_) herr
    simp only [Sync.openEventStream]
    split <;> trivial
  | createRoom userId body =>
    refine Proc.Keeps.answers (fun _ _ => Proc.Keeps.answers (fun _ _ => trivial) herr) herr
  | joinRoom userId roomId => exact Proc.Keeps.answers (fun _ _ => trivial) herr
  | roomToken userId roomId scope => exact Proc.Keeps.answers (fun _ _ => ⟨_, rfl⟩) herr

theorem keeps_liftSync {x : Sync.Handler J β} {χ : Except Sync.Failure β → Prop}
    (h : x.run.Keeps (fun _ _ => True) (fun _ => χ) []) :
    (liftSync x).run.Keeps (Allowed E i r) (fun _ => χ) steps :=
  Proc.Keeps.embed h (fun _ _ => trivial)

theorem keeps_authenticated {authorization : Option String} {route : Sync.Request J} :
    (authenticated E i authorization route).run.Keeps (Allowed E i r)
      (fun later res => Answered E i r later (errorReply res)) [] := by
  refine Proc.Keeps.except_bind ((keeps_liftSync (χ := fun _ => True) ?_).mono ?_)
  · exact Proc.Keeps.trivial _ _
  intro steps res _
  refine ⟨fun user _ => ?_, fun e _ => answered_error e⟩
  refine keeps_check ?_ answered_error
  intro key hkey
  refine Proc.Keeps.except_bind ((keeps_liftSync (signed_routeOf _ route user [])).mono ?_)
  intro later res hres
  refine ⟨fun reply he => ?_, fun e _ => answered_error e⟩
  subst he
  cases reply with
  | roomToken roomId token expiresAt moqOrigin =>
    obtain ⟨p, rfl⟩ := hres
    exact ⟨key, p, hkey, rfl⟩
  | _ => trivial

theorem keeps_fetch : (fetch E i r).Keeps (Allowed E i r) (Answered E i r) [] := by
  refine Proc.Keeps.bind (Proc.Keeps.mono ?_ (fun _ _ h => h))
  cases r with
  | start email ip userAgent =>
    simp only [handleFetch, startMagicLink]
    split
    · trivial
    split
    · trivial
    · exact keeps_perform trivial (fun _ => trivial)
  | verify token => exact keeps_verifyMagicLink rfl
  | refresh refreshToken => exact keeps_rotateSession rfl
  | logout refreshToken => exact keeps_perform trivial (fun _ => trivial)
  | api authorization route => exact keeps_authenticated

end Handlers

section Runs

variable (E : Env J N) (users : Table Sync.UserRow.userId) (turns : List (Turn (Request J)))

/-- Every request of a run keeps to its rules. -/
theorem traced_after : Traced (authService E) (Allowed E) (Answered E) (workerAfter E users turns)
    (eventsAfter E users turns) :=
  traced_run (fun _ _ => keeps_fetch) _ turns

theorem linked_after : Linked (authService E).apply (Store.empty users) (eventsAfter E users turns)
    (workerAfter E users turns).shared :=
  Service.events_linked (S := authService E) (p := Service.fresh (Store.empty users)) turns

variable {E} {users} {turns} {first mid last : List (WorkerEvent J)} {e f : WorkerEvent J}

/-- A request gives a session its own random token. -/
theorem writes_own (h : eventsAfter E users turns = first ++ e :: last) {hash : String}
    (he : e.step.op.writes = some hash) : hash = E.hash (E.randomToken e.task) ∧
      ∀ st ∈ stepsOf e.task first, st.op.writes = none := by
  obtain ⟨r, _, hallowed⟩ := (traced_after E users turns).taken first e last h
  cases hop : e.step.op with
  | insertSession row =>
    rw [hop] at hallowed he
    cases he
    exact ⟨hallowed.2.1, hallowed.1⟩
  | updateSession sessionId replacementHash now expiresAt =>
    rw [hop] at hallowed he
    cases he
    exact ⟨hallowed.2.1, hallowed.1⟩
  | _ =>
    rw [hop] at he
    cases he

/-- A request gives a session a token at most once. -/
theorem writes_once (h : eventsAfter E users turns = first ++ e :: mid ++ f :: last)
    {hash hash' : String} (he : e.step.op.writes = some hash)
    (hf : f.step.op.writes = some hash') : e.task ≠ f.task := by
  intro htask
  have hnone := (writes_own h hf).2 e.step (mem_stepsOf.mpr ⟨e, by simp, htask, rfl⟩)
  rw [he] at hnone
  cases hnone

/-- No token is given to a session twice. -/
theorem writes_apart (h : eventsAfter E users turns = first ++ e :: mid ++ f :: last)
    {hash : String} (he : e.step.op.writes = some hash) : f.step.op.writes ≠ some hash := by
  intro hf
  have hcut : eventsAfter E users turns = first ++ e :: (mid ++ f :: last) := by simp [h]
  refine writes_once h he hf (E.hash_randomToken_inj ?_)
  exact (writes_own hcut he).1.symm.trans (writes_own h hf).1

end Runs

end Seance.Auth
