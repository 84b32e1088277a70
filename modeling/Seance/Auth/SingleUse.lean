import Seance.Auth.Sample
import Seance.Auth.Statements

namespace Seance.Auth
open Lib

variable {J N : Type}

def Store.HasChallenge (s : Store J) (challengeId hashedToken : String) : Prop :=
  ∃ c, s.challenges.find? challengeId = some c ∧ c.hashedToken = hashedToken

def Store.HasConsumed (s : Store J) (challengeId hashedToken : String) : Prop :=
  ∃ c, s.challenges.find? challengeId = some c ∧ c.hashedToken = hashedToken ∧
    c.consumedAt ≠ none

section Statements

variable {s t : Store J} {op : Op J} {a : op.Answer} {challengeId hashedToken : String}

/-- The hashes of magic links tell the challenges apart. -/
theorem uniqueOn_hashedToken_apply (h : op.apply s = some (a, t))
    (hs : s.challenges.UniqueOn ChallengeRow.hashedToken) :
    t.challenges.UniqueOn ChallengeRow.hashedToken := by
  rcases apply_challenges h with heq | ⟨row, rfl, hnone, hins⟩ | ⟨challengeId, now, rfl, rfl⟩
  · rwa [heq]
  · exact hs.insert? hins (by simpa using List.find?_eq_none.mp hnone)
  · exact hs.update (f := fun c : ChallengeRow => { c with consumedAt := some now }) (fun _ => rfl)
      (fun _ => rfl)

theorem find?_consumeChallenge {now : Int} {c : ChallengeRow}
    (h : s.challenges.find? challengeId = some c) (id : String) :
    (s.consumeChallenge id now).challenges.find? challengeId =
      some (if challengeId = id then { c with consumedAt := some now } else c) := by
  simp only [Store.consumeChallenge]
  rw [Table.find?_update, h, Option.map_some, Table.find?_key h]
  simp only [decide_eq_true_eq]

/-- A challenge keeps its hash, and stays consumed. -/
theorem challenge_apply (h : op.apply s = some (a, t)) {c : ChallengeRow}
    (hc : s.challenges.find? challengeId = some c) :
    ∃ d, t.challenges.find? challengeId = some d ∧ d.hashedToken = c.hashedToken ∧
      (c.consumedAt ≠ none → d.consumedAt ≠ none) := by
  rcases apply_challenges h with heq | ⟨row, rfl, hnone, hins⟩ | ⟨id, now, rfl, rfl⟩
  · exact ⟨c, heq ▸ hc, rfl, fun hcon => hcon⟩
  · refine ⟨c, ?_, rfl, fun hcon => hcon⟩
    obtain ⟨hfree, hfind⟩ := Table.insert?_eq_some hins
    rw [hfind, if_neg, hc]
    rintro rfl
    rw [hfree] at hc
    cases hc
  · refine ⟨_, find?_consumeChallenge hc id, ?_, ?_⟩
    · split <;> rfl
    · intro hcon
      split
      · simp
      · exact hcon

theorem hasChallenge_apply (h : op.apply s = some (a, t))
    (hs : s.HasChallenge challengeId hashedToken) : t.HasChallenge challengeId hashedToken := by
  obtain ⟨c, hc, rfl⟩ := hs
  obtain ⟨d, hd, hhash, _⟩ := challenge_apply h hc
  exact ⟨d, hd, hhash⟩

theorem hasConsumed_apply (h : op.apply s = some (a, t))
    (hs : s.HasConsumed challengeId hashedToken) : t.HasConsumed challengeId hashedToken := by
  obtain ⟨c, hc, rfl, hcon⟩ := hs
  obtain ⟨d, hd, hhash, hstill⟩ := challenge_apply h hc
  exact ⟨d, hd, hhash, hstill hcon⟩

end Statements

section Runs

variable {E : Env J N} {users : Table Sync.UserRow.userId} {turns : List (Turn (Request J))}
variable {i : Nat} {before after : List (WorkerEvent J)}
variable {e : WorkerEvent J}

/-- The request is a verify request with the token. -/
def Carries (p : WorkerPool J) (token : String) (i : Nat) : Prop :=
  ∃ text, p.request i = some (.verify text) ∧ trim text.toList = trim token.toList

/-- The request has been answered with a session. -/
def SignedIn (p : WorkerPool J) (i : Nat) : Prop :=
  ∃ reply ∈ p.reply i, reply.isSession = true

instance (p : WorkerPool J) (i : Nat) : Decidable (SignedIn p i) :=
  inferInstanceAs (Decidable (∃ reply ∈ p.reply i, reply.isSession = true))

/-- The event gives a session to a request with the token. -/
def SignsIn (p : WorkerPool J) (token : String) (e : WorkerEvent J) : Prop :=
  Carries p token e.task ∧ ∃ row, e.step.op = .insertSession row

/-- A statement that consumes a challenge finds it not consumed yet. -/
def Op.FindsUnconsumed (s : Store J) : Op J → Prop
  | .consumeChallenge challengeId _ =>
    ∀ c ∈ s.challenges.find? challengeId, c.consumedAt = none
  | _ => True

instance (s : Store J) : DecidablePred (Op.FindsUnconsumed s)
  | .consumeChallenge _ _ => inferInstanceAs (Decidable (∀ c ∈ _, _))
  | .sync _ | .insertChallenge _ | .selectChallenge _ | .selectUserByEmail _ | .insertUser _
  | .insertSession _ | .selectSession _ | .updateSession _ _ _ _ | .revokeSession _ _ =>
    isTrue trivial

theorem uniqueOn_hashedToken_after (h : eventsAfter E users turns = before ++ e :: after) :
    e.pre.challenges.UniqueOn ChallengeRow.hashedToken := by
  have hlinked := linked_after E users turns
  rw [h] at hlinked
  exact (linked_middle hlinked).1.keeps
    (R := fun s : Store J => s.challenges.UniqueOn ChallengeRow.hashedToken) Table.uniqueOn_empty
    (fun _ _ happly hs => uniqueOn_hashedToken_apply happly hs)

/-- A challenge that a verify request consumes is the one of its token. -/
theorem hasChallenge_before (h : eventsAfter E users turns = before ++ e :: after)
    {challengeId : String} {now : Int} (hop : e.step.op = .consumeChallenge challengeId now) :
    ∃ token, (workerAfter E users turns).request e.task = some (.verify token) ∧
      e.pre.HasChallenge challengeId (E.linkHash token) := by
  obtain ⟨r, hr, hallowed⟩ := (traced_after E users turns).taken before e after h
  rw [hop] at hallowed
  obtain ⟨token, challenge, rfl, hselect, rfl⟩ := hallowed
  obtain ⟨c, hc, _, hstep⟩ := mem_stepsOf.mp hselect
  obtain ⟨first, mid, rfl⟩ := List.append_of_mem hc
  have hlinked := linked_after E users turns
  rw [h] at hlinked
  obtain ⟨_, happly, hmid⟩ := linked_middle (linked_middle hlinked).1
  refine ⟨token, hr, hmid.keeps
    (R := fun s : Store J => s.HasChallenge challenge.challengeId (E.linkHash token)) ?_
    (fun _ _ happly hs => hasChallenge_apply happly hs)⟩
  -- what the SELECT has returned is in the table
  obtain ⟨hfind, hpost⟩ := Prod.mk.inj (Option.some.inj (applied_step hstep happly))
  rw [← hpost]
  refine ⟨challenge, ?_, ?_⟩
  · exact Table.find?_of_mem (List.mem_of_find?_eq_some hfind)
  · simpa using List.find?_some hfind

/-- Before a session is issued for a magic link, its challenge was consumed. -/
theorem consumed_before (h : eventsAfter E users turns = before ++ e :: after) {row : SessionRow}
    (hop : e.step.op = .insertSession row) : ∃ first c mid challengeId now,
      before = first ++ c :: mid ∧ c.task = e.task ∧
      c.step.op = .consumeChallenge challengeId now := by
  obtain ⟨r, _, hallowed⟩ := (traced_after E users turns).taken before e after h
  rw [hop] at hallowed
  obtain ⟨_, _, token, challenge, rfl, _, now, hconsume⟩ := hallowed
  obtain ⟨c, hc, htask, hstep⟩ := mem_stepsOf.mp hconsume
  obtain ⟨first, mid, hbefore⟩ := List.append_of_mem hc
  exact ⟨first, c, mid, challenge.challengeId, now, hbefore, htask, by rw [hstep]⟩

/-- No challenge of one token is consumed after another, where every challenge that is consumed
has not been before. -/
theorem consumed_once (hfresh : ∀ e ∈ eventsAfter E users turns, e.step.op.FindsUnconsumed e.pre)
    {first mid last : List (WorkerEvent J)}
    {c d : WorkerEvent J} {token text : String}
    {challengeId challengeId' : String} {now now' : Int}
    (h : eventsAfter E users turns = first ++ c :: mid ++ d :: last)
    (hc : c.step.op = .consumeChallenge challengeId now)
    (hd : d.step.op = .consumeChallenge challengeId' now')
    (hcr : (workerAfter E users turns).request c.task = some (.verify token))
    (hdr : (workerAfter E users turns).request d.task = some (.verify text)) :
    E.linkHash token ≠ E.linkHash text := by
  intro htoken
  have hcut : eventsAfter E users turns = first ++ c :: (mid ++ d :: last) := by simp [h]
  have hlinked := linked_after E users turns
  rw [hcut] at hlinked
  obtain ⟨_, happly, hafter⟩ := linked_middle hlinked
  obtain ⟨hmid, _, _⟩ := linked_middle hafter
  obtain ⟨_, hcr', x, hx, hxhash⟩ := hasChallenge_before hcut hc
  obtain ⟨_, hdr', y, hy, hyhash⟩ := hasChallenge_before h hd
  rw [hcr] at hcr'
  rw [hdr] at hdr'
  cases hcr'
  cases hdr'
  -- the first of the two leaves the challenge consumed
  have hspent : c.post.HasConsumed challengeId (E.linkHash token) := by
    obtain ⟨_, hconsume⟩ := applied_op hc happly
    have hpost : c.pre.consumeChallenge challengeId now = c.post :=
      congrArg Prod.snd (Option.some.inj hconsume)
    rw [← hpost]
    exact ⟨_, find?_consumeChallenge hx challengeId, by rw [if_pos rfl]; exact hxhash, by simp⟩
  obtain ⟨z, hz, hzhash, hzcon⟩ := hmid.keeps
    (R := fun s : Store J => s.HasConsumed challengeId (E.linkHash token)) hspent
    (fun _ _ happly hs => hasConsumed_apply happly hs)
  have hyz : y = z := uniqueOn_hashedToken_after h y (Table.mem_of_find? hy) z (Table.mem_of_find? hz)
    (hyhash.trans (htoken.symm.trans hzhash.symm))
  have hunconsumed := hfresh d (by rw [h]; simp)
  rw [hd] at hunconsumed
  exact hzcon (hyz ▸ hunconsumed y hy)

/-- Two sessions for one token come from one consumption after another. -/
theorem not_signsIn_twice (hfresh : ∀ e ∈ eventsAfter E users turns, e.step.op.FindsUnconsumed e.pre)
    {first mid last : List (WorkerEvent J)}
    {e f : WorkerEvent J} {token : String}
    (h : eventsAfter E users turns = first ++ e :: mid ++ f :: last) :
    ¬ (SignsIn (workerAfter E users turns) token e ∧
      SignsIn (workerAfter E users turns) token f) := by
  rintro ⟨⟨⟨text, hr, htrim⟩, row, hop⟩, ⟨text', hr', htrim'⟩, row', hop'⟩
  have htask := writes_once h (by rw [hop]; rfl) (by rw [hop']; rfl)
  have hhash : E.linkHash text = E.linkHash text' := by
    rw [Env.linkHash, Env.linkHash, htrim, htrim']
  have hcut : eventsAfter E users turns = first ++ e :: (mid ++ f :: last) := by simp [h]
  obtain ⟨p, c, q, id, now, hc, hctask, hcop⟩ := consumed_before hcut hop
  obtain ⟨p', d, q', id', now', hd, hdtask, hdop⟩ := consumed_before h hop'
  rw [← hctask] at hr
  rw [← hdtask] at hr'
  have hccut : eventsAfter E users turns = p ++ c :: (q ++ e :: mid ++ f :: last) := by
    rw [h, hc]
    simp
  have hdmem : d ∈ eventsAfter E users turns := by
    rw [h, hd]
    simp
  rw [hccut] at hdmem
  rcases List.mem_append.mp hdmem with hdmem | hdmem
  · obtain ⟨x, y, rfl⟩ := List.append_of_mem hdmem
    exact consumed_once hfresh hccut hdop hcop hr' hr hhash.symm
  · rcases List.mem_cons.mp hdmem with rfl | hdmem
    · exact htask (hctask.symm.trans hdtask)
    · obtain ⟨x, y, hxy⟩ := List.append_of_mem hdmem
      have hcut : eventsAfter E users turns = p ++ c :: x ++ d :: y := by
        rw [hccut, hxy]
        simp
      exact consumed_once hfresh hcut hcop hdop hr hr' hhash

/-- What has answered with a session has given one. -/
theorem exists_signsIn {i : Nat} {token : String}
    (hcarries : Carries (workerAfter E users turns) token i)
    (hin : SignedIn (workerAfter E users turns) i) :
    ∃ e ∈ eventsAfter E users turns, e.task = i ∧
      SignsIn (workerAfter E users turns) token e := by
  obtain ⟨text, hr, htrim⟩ := hcarries
  obtain ⟨reply, hreply, hsession⟩ := hin
  obtain ⟨accessToken, refreshToken, user, rfl⟩ := Reply.isSession_iff.mp hsession
  rcases (traced_after E users turns).replied hr hreply with hanswered | hcrash
  · obtain ⟨_, _, _, ⟨_, row, _, hinsert⟩ | ⟨_, _, _, _, he, _⟩⟩ := hanswered
    · obtain ⟨e, he, rfl, hstep⟩ := mem_stepsOf.mp hinsert
      exact ⟨e, he, rfl, ⟨text, hr, htrim⟩, row, by rw [hstep]⟩
    · cases he
  · cases hcrash

/-- At most one statement of a run gives a session for the token of a magic link, and at most one
request with the token is answered with one, where no challenge is consumed that has been before. -/
theorem verify_once (E : Env J N) (users : Table Sync.UserRow.userId)
    (turns : List (Turn (Request J))) (token : String)
    (hfresh : ∀ e ∈ eventsAfter E users turns, e.step.op.FindsUnconsumed e.pre) :
    (eventsAfter E users turns).Pairwise (fun e f =>
      ¬ (SignsIn (workerAfter E users turns) token e ∧
        SignsIn (workerAfter E users turns) token f)) ∧
    ∀ i j, Carries (workerAfter E users turns) token i → Carries (workerAfter E users turns) token j →
      SignedIn (workerAfter E users turns) i → SignedIn (workerAfter E users turns) j → i = j := by
  have htwice : ∀ first e mid f last,
      eventsAfter E users turns = first ++ e :: mid ++ f :: last →
      ¬ (SignsIn (workerAfter E users turns) token e ∧
        SignsIn (workerAfter E users turns) token f) :=
    fun _ _ _ _ _ h => not_signsIn_twice hfresh h
  refine ⟨pairwise_of_cut htwice, ?_⟩
  intro i j hi hj hini hinj
  obtain ⟨e, he, rfl, hsigns⟩ := exists_signsIn hi hini
  obtain ⟨f, hf, rfl, hsigns'⟩ := exists_signsIn hj hinj
  obtain ⟨first, rest, hcut⟩ := List.append_of_mem he
  rw [hcut] at hf
  rcases List.mem_append.mp hf with hf | hf
  · obtain ⟨x, y, rfl⟩ := List.append_of_mem hf
    exact absurd ⟨hsigns', hsigns⟩ (htwice _ _ _ _ _ hcut)
  · rcases List.mem_cons.mp hf with rfl | hf
    · rfl
    · obtain ⟨x, y, rfl⟩ := List.append_of_mem hf
      exact absurd ⟨hsigns, hsigns'⟩ (htwice first e x f y (by simp [hcut]))

end Runs

section Example
open Sample

/-- The link's token twice, where both requests read the challenge before either consumes it. -/
def verifiedTwice : List (Turn (Request Unit)) :=
  linked ++ [.arrive (.verify (env.randomToken 0)), .arrive (.verify (env.randomToken 0)),
    .serve 1 .intact, .serve 2 .intact] ++ Sample.turns 1 3 ++ Sample.turns 2 3

theorem verify_once_verified :
    (eventsAfter env Sync.Sample.users verified).Pairwise (fun e f =>
      ¬ (SignsIn (workerAfter env Sync.Sample.users verified) (env.randomToken 0) e ∧
        SignsIn (workerAfter env Sync.Sample.users verified) (env.randomToken 0) f)) ∧
    ∀ i j, Carries (workerAfter env Sync.Sample.users verified) (env.randomToken 0) i →
      Carries (workerAfter env Sync.Sample.users verified) (env.randomToken 0) j →
      SignedIn (workerAfter env Sync.Sample.users verified) i →
      SignedIn (workerAfter env Sync.Sample.users verified) j → i = j :=
  verify_once env Sync.Sample.users verified (env.randomToken 0) (by decide +kernel)

theorem verify_twice :
    Carries (workerAfter env Sync.Sample.users verifiedTwice) (env.randomToken 0) 1 ∧
    Carries (workerAfter env Sync.Sample.users verifiedTwice) (env.randomToken 0) 2 ∧
    SignedIn (workerAfter env Sync.Sample.users verifiedTwice) 1 ∧
    SignedIn (workerAfter env Sync.Sample.users verifiedTwice) 2 := by
  refine ⟨⟨env.randomToken 0, ?_, rfl⟩, ⟨env.randomToken 0, ?_, rfl⟩, ?_, ?_⟩
  · rfl
  · rfl
  · decide +kernel
  · decide +kernel

end Example

end Seance.Auth
