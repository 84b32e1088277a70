import Seance.Auth.Sample
import Seance.Auth.Statements

namespace Seance.Auth
open Lib

variable {J N : Type}

section Claims

variable (E : Env J N) (p : WorkerPool J) (now : Int) (authorization : Option String)

/-- An access token that `issueSession` or `rotateSession` has handed out. -/
def Minted (token : String) : Prop := ∃ i, (p.reply i).bind Reply.accessToken = some token

def HandedOut (token : String) : Prop :=
  Minted p token ∨ ∃ i, (p.reply i).bind Reply.roomToken = some token

/-- The request would be let through. -/
def Accepted : Prop := ∃ user s,
  (authenticateRequest E.crypto E.signingKey now authorization).alone p.shared.server =
    (some (.ok user), s)

/-- The header's token is signed over the payload, with a signature written in these digits. -/
def Presents (payload : Json N) (signature : List Char) : Prop :=
  ∃ key token header body, secretFromEnv E.signingKey = .ok key ∧
    presented authorization = some token ∧ token.splitOn '.' = [header, body, signature] ∧
    base64UrlDecode signature = some (mac E.crypto key (header ++ '.' :: body)) ∧
    header ++ '.' :: body = signingInput E.crypto payload

/-- Whoever sends the header has a signature only of what a token was signed over that the worker
has handed out. -/
def Unforgeable : Prop :=
  ∀ key token header body signature, secretFromEnv E.signingKey = .ok key →
    presented authorization = some token → token.splitOn '.' = [header, body, signature] →
    base64UrlDecode signature = some (mac E.crypto key (header ++ '.' :: body)) →
    ∃ payload, HandedOut p (sign E payload key) ∧
      header ++ '.' :: body = signingInput E.crypto payload

/-- The token's user is there and not disabled, and the token has not expired. -/
def Current (sub : String) (exp : Int) : Prop :=
  E.crypto.lessThan (some (.num (E.crypto.ofInt exp))) now = false ∧
    p.shared.server.db.IsActive sub

/-- The header presents a room token, or an access token whose signature was encoded anew. -/
def Misused : Prop :=
  (∃ room signature, Presents E authorization (roomPayload E room) signature ∧
    Current E p now room.sub room.exp) ∨
  ∃ user sid iat exp signature, Presents E authorization (accessPayload E user sid iat exp) signature ∧
    (∀ bytes, signature ≠ base64UrlEncode bytes) ∧ Current E p now user.userId exp

end Claims

section Tokens

variable {E : Env J N} {p : WorkerPool J} {now : Int} {authorization : Option String}

/-- What the worker reads from a header with a signature of its own. -/
theorem accepted_iff_current {key : SigningKey} {token header body signature : List Char}
    {members : List (String × Json N)} {sub : String} {exp : Int}
    (hkey : secretFromEnv E.signingKey = .ok key) (htoken : presented authorization = some token)
    (hparts : token.splitOn '.' = [header, body, signature])
    (hmac : base64UrlDecode signature = some (mac E.crypto key (header ++ '.' :: body)))
    (htext : header ++ '.' :: body = signingInput E.crypto (.obj members))
    (hdistinct : (Json.obj members).Distinct)
    (hsub : member "sub" (.obj members) = some (.str sub))
    (hexp : member "exp" (.obj members) = some (.num (E.crypto.ofInt exp))) :
    Accepted E p now authorization ↔ Current E p now sub exp := by
  obtain ⟨hsecret, hlong⟩ := secretFromEnv_eq_ok.mp hkey
  have hdot : '.' ∉ header := not_mem_splitOn (by rw [hparts]; exact List.mem_cons_self)
  have hverify : verifyToken E.crypto token key = .ok (some (.obj members)) := by
    rw [verifyToken, hparts]
    dsimp only
    rw [hmac]
    simp only [↓reduceIte, (signingInput_inj hdot htext).2, readBody_encodePart hdistinct]
  have hauth : authenticateRequest (J := J) E.crypto E.signingKey now authorization =
      if E.crypto.lessThan (some (.num (E.crypto.ofInt exp))) now then
        Sync.httpError 401 "Access token is invalid."
      else Sync.assertUserActive sub := by
    rw [hsecret, authenticateRequest_presented htoken hlong, hverify, ← hexp]
    change (if !true || _ then _ else assertSubjectActive _ _) = _
    rw [Bool.not_true, Bool.false_or, assertSubjectActive, hsub, E.crypto.bindText_str]
    rfl
  unfold Accepted Current
  rw [hauth]
  cases hless : E.crypto.lessThan (some (.num (E.crypto.ofInt exp))) now with
  | true =>
    simp
  | false =>
    simp only [Bool.false_eq_true, ↓reduceIte, true_and]
    constructor
    · rintro ⟨user, s, halone⟩
      by_contra hoff
      rw [Sync.assertUserActive_of_not_active hoff] at halone
      cases halone
    · intro hon
      obtain ⟨user, _, halone⟩ := Sync.assertUserActive_of_active hon
      exact ⟨user, _, halone⟩

/-- Whoever is let through has presented a signature of the worker's. -/
theorem presents_of_accepted (h : Accepted E p now authorization) :
    ∃ key token header body signature, secretFromEnv E.signingKey = .ok key ∧
      presented authorization = some token ∧ token.splitOn '.' = [header, body, signature] ∧
      base64UrlDecode signature = some (mac E.crypto key (header ++ '.' :: body)) := by
  obtain ⟨user, s, halone⟩ := h
  cases htoken : presented authorization with
  | none =>
    rw [authenticateRequest_not_presented htoken] at halone
    cases halone
  | some token =>
    cases hkey : secretFromEnv E.signingKey with
    | error e =>
      rw [authenticateRequest_no_key htoken hkey] at halone
      cases halone
    | ok key =>
      obtain ⟨hsecret, hlong⟩ := secretFromEnv_eq_ok.mp hkey
      rw [hsecret, authenticateRequest_presented htoken hlong] at halone
      cases hverify : verifyToken E.crypto token key with
      | error e =>
        rw [hverify] at halone
        cases halone
      | ok payload =>
        cases payload with
        | none =>
          rw [hverify] at halone
          cases halone
        | some payload =>
          unfold verifyToken at hverify
          split at hverify
          · rename_i header body signature hparts
            cases hdecode : base64UrlDecode signature with
            | none =>
              rw [hdecode] at hverify
              cases hverify
            | some bytes =>
              rw [hdecode] at hverify
              dsimp only at hverify
              split at hverify
              · rename_i hmac
                exact ⟨key, token, header, body, signature, rfl, rfl, hparts, hmac ▸ hdecode⟩
              · cases hverify
          · cases hverify

/-- What a token is signed over tells its payload. -/
theorem payload_inj {C : Crypto N} {ms ns : List (String × Json N)} (hm : (Json.obj ms).Distinct)
    (hn : (Json.obj ns).Distinct)
    (h : signingInput C (.obj ms) = signingInput C (.obj ns)) : ms = ns := by
  have hbody := (signingInput_inj (dot_not_mem_encodePart _) h).2
  have hread := congrArg (readBody C) hbody
  rw [readBody_encodePart hm, readBody_encodePart hn] at hread
  cases hread
  rfl

theorem distinct_accessPayload (user : Sync.AuthenticatedUser) (sid : String) (iat exp : Int) :
    (accessPayload E user sid iat exp).Distinct := by
  simp [accessPayload, Json.Distinct, Json.Distinct.DistinctMembers]

theorem distinct_roomPayload (room : Sync.RoomTokenPayload) : (roomPayload E room).Distinct := by
  simp [roomPayload, Json.Distinct, Json.Distinct.DistinctMembers]

theorem splitOn_sign (E : Env J N) (payload : Json N) (key : SigningKey) :
    (sign E payload key).toList.splitOn '.' = [encodePart E.crypto tokenHeader,
      encodePart E.crypto payload,
      base64UrlEncode (mac E.crypto key (signingInput E.crypto payload))] := by
  rw [sign, String.toList_ofList, signToken, signingInput, splitOn_parts (dot_not_mem_encodePart _)
    (dot_not_mem_encodePart _) (dot_not_mem_encode _)]

/-- A token is told by what it is signed over and its signature. -/
theorem eq_sign_of_parts {key : SigningKey} {token header body : List Char} {bytes : List UInt8}
    {payload : Json N} (hparts : token.splitOn '.' = [header, body, base64UrlEncode bytes])
    (hmac : some bytes = some (mac E.crypto key (header ++ '.' :: body)))
    (htext : header ++ '.' :: body = signingInput E.crypto payload) :
    String.ofList token = sign E payload key := by
  have hjoin : List.intercalate ['.'] (token.splitOn '.') = token := List.intercalate_splitOn '.'
  have hbytes := Option.some.inj hmac
  rw [hparts] at hjoin
  rw [htext] at hbytes
  rw [sign, signToken, ← hbytes, ← htext, ← hjoin]
  simp [List.intercalate]

theorem signingInput_of_sign {payload other : Json N} {key key' : SigningKey}
    (h : sign E payload key = sign E other key') :
    signingInput E.crypto payload = signingInput E.crypto other := by
  have hsplit := splitOn_sign E payload key
  rw [h, splitOn_sign] at hsplit
  have hbody := (List.cons.inj (List.cons.inj hsplit).2).1
  rw [signingInput, signingInput, hbody]

end Tokens

section Runs

variable {E : Env J N} {users : Table Sync.UserRow.userId} {turns : List (Turn (Request J))}
variable {token : String}

/-- What a run has answered a request with. -/
theorem answered_after {i : Nat} {reply : Reply J}
    (h : (workerAfter E users turns).reply i = some reply) :
    (∃ r, Answered E i r (stepsOf i (eventsAfter E users turns)) reply) ∨ reply = internalError := by
  obtain ⟨task, ht, _⟩ := Option.bind_eq_some_iff.mp h
  have hr : (workerAfter E users turns).request i = some task.request := by
    rw [Pool.request, ht, Option.map_some]
  exact ((traced_after E users turns).replied hr h).imp_left (fun ha => ⟨_, ha⟩)

theorem isAccessToken_of_minted (h : Minted (workerAfter E users turns) token) :
    IsAccessToken E token := by
  obtain ⟨i, h⟩ := h
  obtain ⟨reply, hreply, htoken⟩ := Option.bind_eq_some_iff.mp h
  cases reply with
  | session accessToken refreshToken user =>
    cases htoken
    rcases answered_after hreply with ⟨r, hanswered⟩ | hcrash
    · exact hanswered.1
    · cases hcrash
  | _ => cases htoken

theorem isRoomToken_of_handedOut {i : Nat}
    (h : ((workerAfter E users turns).reply i).bind Reply.roomToken = some token) :
    IsRoomToken E token := by
  obtain ⟨reply, hreply, htoken⟩ := Option.bind_eq_some_iff.mp h
  cases reply with
  | api reply =>
    cases reply with
    | roomToken roomId text expiresAt moqOrigin =>
      cases htoken
      rcases answered_after hreply with ⟨r, hanswered⟩ | hcrash
      · exact hanswered
      · cases hcrash
    | _ => cases htoken
  | _ => cases htoken

/-- The parts of an access token of the run's. -/
theorem parts_of_minted {text header body signature : List Char}
    (h : Minted (workerAfter E users turns) (String.ofList text))
    (hparts : text.splitOn '.' = [header, body, signature]) :
    ∃ user sid iat exp bytes, signature = base64UrlEncode bytes ∧
      header ++ '.' :: body = signingInput E.crypto (accessPayload E user sid iat exp) := by
  obtain ⟨key, user, sid, iat, exp, _, hsigned⟩ := isAccessToken_of_minted h
  have hsplit := splitOn_sign E (accessPayload E user sid iat exp) key
  rw [← hsigned, String.toList_ofList, hparts] at hsplit
  obtain ⟨hheader, hrest⟩ := List.cons.inj hsplit
  obtain ⟨hbody, hlast⟩ := List.cons.inj hrest
  refine ⟨user, sid, iat, exp, _, (List.cons.inj hlast).1, ?_⟩
  rw [hheader, hbody, signingInput]

/-- An access token and a room token are signed over different texts. -/
theorem accessPayload_ne_roomPayload {user : Sync.AuthenticatedUser} {sid : String}
    {iat exp : Int} {room : Sync.RoomTokenPayload} :
    signingInput E.crypto (accessPayload E user sid iat exp) ≠
      signingInput E.crypto (roomPayload E room) := by
  intro h
  have hpayload := payload_inj (distinct_accessPayload user sid iat exp)
    (distinct_roomPayload room) h
  have hname : "email" = "room_id" :=
    congrArg Prod.fst (List.cons.inj (List.cons.inj hpayload).2).1
  exact absurd hname (by decide)

/-- A bearer string is let through only if it is an access token of the run's, exactly where it
neither presents a room token nor an access token with its signature encoded anew. -/
theorem token_classes_iff (E : Env J N) (users : Table Sync.UserRow.userId)
    (turns : List (Turn (Request J))) (now : Int) (authorization : Option String)
    (hideal : Unforgeable E (workerAfter E users turns) authorization) :
    (Accepted E (workerAfter E users turns) now authorization →
      ∃ token, presented authorization = some token ∧
        Minted (workerAfter E users turns) (String.ofList token)) ↔
    ¬ Misused E (workerAfter E users turns) now authorization := by
  constructor
  · rintro h (⟨room, signature, ⟨key, token, header, body, hkey, htoken, hparts, hmac, htext⟩,
      hcurrent⟩ | ⟨user, sid, iat, exp, signature, ⟨key, token, header, body, hkey, htoken, hparts,
      hmac, htext⟩, hanew, hcurrent⟩)
    · have haccepted := (accepted_iff_current hkey htoken hparts hmac htext
        (distinct_roomPayload room) rfl rfl).mpr hcurrent
      obtain ⟨text, htext', hminted⟩ := h haccepted
      rw [htoken] at htext'
      cases htext'
      obtain ⟨user, sid, iat, exp, _, _, htext'⟩ := parts_of_minted hminted hparts
      exact accessPayload_ne_roomPayload (htext'.symm.trans htext)
    · have haccepted := (accepted_iff_current hkey htoken hparts hmac htext
        (distinct_accessPayload user sid iat exp) rfl rfl).mpr hcurrent
      obtain ⟨text, htext', hminted⟩ := h haccepted
      rw [htoken] at htext'
      cases htext'
      obtain ⟨_, _, _, _, bytes, hsignature, _⟩ := parts_of_minted hminted hparts
      exact hanew bytes hsignature
  · intro h haccepted
    obtain ⟨key, token, header, body, signature, hkey, htoken, hparts, hmac⟩ :=
      presents_of_accepted haccepted
    obtain ⟨payload, hminted | ⟨i, hroom⟩, htext⟩ :=
      hideal key token header body signature hkey htoken hparts hmac
    · obtain ⟨key', user, sid, iat, exp, hkey', hsigned⟩ := isAccessToken_of_minted hminted
      rw [hkey] at hkey'
      cases hkey'
      have hsame := signingInput_of_sign hsigned
      rw [hsame] at htext
      by_cases hanew : ∃ bytes, signature = base64UrlEncode bytes
      · -- the signature's only writing is the one that was handed out
        obtain ⟨bytes, rfl⟩ := hanew
        rw [base64UrlDecode_encode] at hmac
        refine ⟨token, htoken, ?_⟩
        rw [← hsame] at htext
        rw [eq_sign_of_parts hparts hmac htext]
        exact hminted
      · push Not at hanew
        refine absurd (.inr ⟨user, sid, iat, exp, signature,
          ⟨key, token, header, body, hkey, htoken, hparts, hmac, htext⟩, hanew, ?_⟩) h
        exact (accepted_iff_current hkey htoken hparts hmac htext
          (distinct_accessPayload user sid iat exp) rfl rfl).mp haccepted
    · obtain ⟨key', room, hkey', hsigned⟩ := isRoomToken_of_handedOut hroom
      rw [hkey] at hkey'
      cases hkey'
      have hsame := signingInput_of_sign hsigned
      rw [hsame] at htext
      refine absurd (.inl ⟨room, signature,
        ⟨key, token, header, body, hkey, htoken, hparts, hmac, htext⟩, ?_⟩) h
      exact (accepted_iff_current hkey htoken hparts hmac htext
        (distinct_roomPayload room) rfl rfl).mp haccepted

end Runs

section Presented

variable {E : Env J N} {p : WorkerPool J} {now : Int} {authorization : Option String}
variable {key : SigningKey} {payload : Json N}

theorem not_isTrimmed_encode (bytes : List UInt8) :
    ∀ c ∈ base64UrlEncode bytes, isTrimmed c = false := by
  have hall : ∀ m : Fin 64, isTrimmed (toUrlDigit (Base64.digit m)) = false := by decide +kernel
  rw [base64UrlEncode_eq]
  intro c hc
  obtain ⟨n, hn, rfl⟩ := List.mem_map.mp hc
  exact hall ⟨n, Base64.digits_lt bytes n hn⟩

/-- A token after "Bearer " is presented as it is. -/
theorem presented_bearer : presented (some ("Bearer " ++ sign E payload key)) =
    some (sign E payload key).toList := by
  have hkeep : ∀ c ∈ (sign E payload key).toList, isTrimmed c = false := by
    have hdot : isTrimmed '.' = false := by decide
    intro c hc
    rw [sign, String.toList_ofList, signToken, signingInput, List.append_assoc, List.cons_append,
      List.mem_append, List.mem_cons, List.mem_append, List.mem_cons] at hc
    rcases hc with hc | rfl | hc | rfl | hc
    · exact not_isTrimmed_encode _ c hc
    · exact hdot
    · exact not_isTrimmed_encode _ c hc
    · exact hdot
    · exact not_isTrimmed_encode _ c hc
  have htrim : trim (sign E payload key).toList = (sign E payload key).toList := by
    rw [trim, List.dropWhile_eq_self_iff.mpr, List.rdropWhile_eq_self_iff.mpr]
    · intro hne
      rw [hkeep _ (List.getLast_mem hne)]
      exact Bool.false_ne_true
    · intro hlt
      rw [hkeep _ (List.getElem_mem hlt)]
      exact Bool.false_ne_true
  have hvalue : ("Bearer " ++ sign E payload key).toList = bearer ++ (sign E payload key).toList :=
    String.toList_append
  rw [presented, Option.bind_some, hvalue, if_pos (List.prefix_append _ _), List.drop_left, htrim]

theorem unforgeable_of_handedOut (hkey : secretFromEnv E.signingKey = .ok key)
    (hout : HandedOut p (sign E payload key))
    (hpresented : presented authorization = some (sign E payload key).toList) :
    Unforgeable E p authorization := by
  intro key' token header body signature hkey' htoken hparts _
  rw [hkey] at hkey'
  rw [hpresented] at htoken
  rw [← Option.some.inj htoken, splitOn_sign] at hparts
  rw [← Except.ok.inj hkey']
  obtain ⟨hheader, hrest⟩ := List.cons.inj hparts
  refine ⟨payload, hout, ?_⟩
  rw [← hheader, ← (List.cons.inj hrest).1, signingInput]

theorem accepted_of_roomToken {room : Sync.RoomTokenPayload}
    (hkey : secretFromEnv E.signingKey = .ok key)
    (hpresented : presented authorization = some (sign E (roomPayload E room) key).toList)
    (hcurrent : Current E p now room.sub room.exp) : Accepted E p now authorization :=
  (accepted_iff_current hkey hpresented (splitOn_sign _ _ _) (base64UrlDecode_encode _) rfl
    (distinct_roomPayload room) rfl rfl).mpr hcurrent

end Presented

section Example
open Sample

theorem secretFromEnv_env : secretFromEnv env.signingKey = .ok Sample.key := rfl

/-- What the access token of the user's session is signed over. -/
def session : Json Nat :=
  accessPayload env ⟨"u", "u@example.com"⟩ (env.randomUUID 1 1) (env.nowTs 1 1)
    (env.nowTs 1 1 + 900)

def accessToken : String := sign env session Sample.key

/-- The user creates a vault and a room, and gets a token to publish in it. -/
def published : List (Turn (Request Unit)) :=
  verified ++
  .arrive (.api (some ("Bearer " ++ accessToken)) (.createVault "u"
    ⟨"v", "vault", Sync.Sample.snapshot 1⟩)) :: Sample.turns 2 6 ++
  .arrive (.api (some ("Bearer " ++ accessToken)) (.createRoom "u"
    ⟨"v", "room", "terminal_session", none⟩)) :: Sample.turns 3 3 ++
  .arrive (.api (some ("Bearer " ++ accessToken)) (.roomToken "u"
    (Sync.Sample.platform.randomUUID 3) .publish)) :: Sample.turns 4 2

def room : Sync.RoomTokenPayload :=
  ⟨"u", Sync.Sample.platform.randomUUID 3, "v", "terminal_session", .publish, 304⟩

def publishToken : String := sign env (roomPayload env room) Sample.key

/-- The access token of a session. -/
theorem token_classes_iff_signedIn :
    (Accepted env (workerAfter env Sync.Sample.users verified) 5
      (some ("Bearer " ++ accessToken)) →
      ∃ token, presented (some ("Bearer " ++ accessToken)) = some token ∧
        Minted (workerAfter env Sync.Sample.users verified) (String.ofList token)) ↔
    ¬ Misused env (workerAfter env Sync.Sample.users verified) 5
      (some ("Bearer " ++ accessToken)) := by
  refine token_classes_iff env Sync.Sample.users verified 5 (some ("Bearer " ++ accessToken)) ?_
  have hreply : ((workerAfter env Sync.Sample.users verified).reply 1).bind Reply.accessToken =
      some accessToken := rfl
  exact unforgeable_of_handedOut secretFromEnv_env (.inl ⟨1, hreply⟩) presented_bearer

theorem roomToken_accepted :
    Unforgeable env (workerAfter env Sync.Sample.users published)
      (some ("Bearer " ++ publishToken)) ∧
    ((workerAfter env Sync.Sample.users published).reply 4).bind Reply.roomToken =
      some publishToken ∧
    Accepted env (workerAfter env Sync.Sample.users published) 5
      (some ("Bearer " ++ publishToken)) ∧
    presented (some ("Bearer " ++ publishToken)) = some publishToken.toList ∧
    ¬ Minted (workerAfter env Sync.Sample.users published) publishToken := by
  have hreply : ((workerAfter env Sync.Sample.users published).reply 4).bind Reply.roomToken =
      some publishToken := by
    decide +kernel
  have hpresented : presented (some ("Bearer " ++ publishToken)) = some publishToken.toList :=
    presented_bearer
  have hactive : (workerAfter env Sync.Sample.users published).shared.server.db.users.find? "u" =
      some ⟨"u", "u@example.com", none⟩ :=
    (linked_after env Sync.Sample.users published).keeps
      (R := fun s : Store Unit => s.server.db.users.find? "u" = some ⟨"u", "u@example.com", none⟩)
      rfl (fun _ _ happly hs => users_apply happly _ _ hs)
  refine ⟨unforgeable_of_handedOut secretFromEnv_env (.inr ⟨4, hreply⟩) hpresented, hreply, ?_,
    hpresented, ?_⟩
  · exact accepted_of_roomToken secretFromEnv_env hpresented ⟨by decide, _, hactive, rfl⟩
  · intro hminted
    obtain ⟨key, user, sid, iat, exp, _, hsigned⟩ := isAccessToken_of_minted hminted
    exact accessPayload_ne_roomPayload (signingInput_of_sign hsigned).symm

end Example

end Seance.Auth

namespace Seance.Auth
open Lib

variable {J N : Type} {C : Crypto N} {key : SigningKey}

/-- The header's token is read as null, and the request is answered 401 before anything else. -/
structure Refused (J : Type) (C : Crypto N) (key : SigningKey) (now : Int)
    (authorization : Option String) : Prop where
  token : ∀ token, presented authorization = some token → verifyToken C token key = .ok none
  reply : ∃ message, authenticateRequest (J := J) C (some key.secret) now authorization =
    Sync.httpError 401 message

/-- A token of three parts carries a signature that `atob` takes, and that is not the one of its
text. -/
def WronglySigned (C : Crypto N) (key : SigningKey) (token : List Char) : Prop :=
  ∀ header body signature, token.splitOn '.' = [header, body, signature] →
    ∃ bytes, base64UrlDecode signature = some bytes ∧ bytes ≠ mac C key (header ++ '.' :: body)

/-- Whoever made the token has no signature of a text that was not signed as a JSON object. -/
def Unforged (C : Crypto N) (key : SigningKey) (token : List Char) : Prop :=
  ∀ header body signature, token.splitOn '.' = [header, body, signature] →
    base64UrlDecode signature = some (mac C key (header ++ '.' :: body)) →
    ∃ members, (Json.obj members).Distinct ∧
      header ++ '.' :: body = signingInput C (.obj members)

theorem verifyToken_of_wronglySigned {token : List Char} (h : WronglySigned C key token) :
    verifyToken C token key = .ok none := by
  unfold verifyToken
  split
  · rename_i header body signature hsplit
    obtain ⟨bytes, hbytes, hne⟩ := h header body signature hsplit
    rw [hbytes]
    exact if_neg hne
  · rfl

/-- A token is read as null only for such a signature. -/
theorem wronglySigned_of_verifyToken {token : List Char} (hideal : Unforged C key token)
    (h : verifyToken C token key = .ok none) : WronglySigned C key token := by
  intro header body signature hsplit
  rw [verifyToken, hsplit] at h
  dsimp only at h
  cases hdecode : base64UrlDecode signature with
  | none =>
    rw [hdecode] at h
    cases h
  | some bytes =>
    refine ⟨bytes, rfl, ?_⟩
    rintro rfl
    obtain ⟨members, hdistinct, htext⟩ := hideal header body signature hsplit hdecode
    have hdot : '.' ∉ header := not_mem_splitOn (by rw [hsplit]; exact List.mem_cons_self)
    rw [hdecode] at h
    simp only [↓reduceIte, (signingInput_inj hdot htext).2, readBody_encodePart hdistinct] at h
    cases h

/-- The codec and the tokens round-trip, and an Authorization header is refused with 401 exactly
where its token has not three parts, or its signature is Base64 of another one. -/
theorem token_codec_iff (J : Type) (C : Crypto N) (key : SigningKey) (now : Int)
    (authorization : Option String) :
    (∀ bytes, base64UrlDecode (base64UrlEncode bytes) = some bytes) ∧
    (∀ members, (Json.obj members).Distinct →
      verifyToken C (signToken C (.obj members) key) key = .ok (some (.obj members))) ∧
    (16 ≤ utf16Length key.secret.toList →
      (∀ token, presented authorization = some token → Unforged C key token) →
      (Refused J C key now authorization ↔
        ∀ token, presented authorization = some token → WronglySigned C key token)) := by
  refine ⟨base64UrlDecode_encode, fun _ => verifyToken_signToken, ?_⟩
  intro hlong hideal
  constructor
  · intro h token htoken
    exact wronglySigned_of_verifyToken (hideal token htoken) (h.token token htoken)
  · intro h
    refine ⟨fun token htoken => verifyToken_of_wronglySigned (h token htoken), ?_⟩
    cases hpresented : presented authorization with
    | none => exact ⟨_, authenticateRequest_not_presented hpresented now⟩
    | some token =>
      have hnull := verifyToken_of_wronglySigned (h token hpresented)
      refine ⟨"Access token is invalid.", ?_⟩
      rw [authenticateRequest_presented hpresented hlong, hnull]
      rfl

section Example
open Sample

/-- A signature of three bytes. -/
theorem token_codec_iff_short : Refused Unit crypto Sample.key 0 (some "Bearer a.b.AAAA") := by
  have hpresented : presented (some "Bearer a.b.AAAA") = some "a.b.AAAA".toList := by decide
  have hparts : "a.b.AAAA".toList.splitOn '.' = [['a'], ['b'], "AAAA".toList] := by decide
  have hbytes : base64UrlDecode "AAAA".toList = some [0, 0, 0] := by decide +kernel
  have hshort (text : List Char) : [0, 0, 0] ≠ mac crypto Sample.key text := by
    intro h
    have hlength := congrArg List.length h
    rw [mac, length_hmac] at hlength
    cases hlength
  refine ((token_codec_iff Unit crypto Sample.key 0 (some "Bearer a.b.AAAA")).2.2
    (by decide) ?_).mpr ?_
  · intro token htoken header body signature hsplit hdecode
    cases hpresented.symm.trans htoken
    cases hparts.symm.trans hsplit
    exact absurd (Option.some.inj (hbytes.symm.trans hdecode)) (hshort _)
  · intro token htoken header body signature hsplit
    cases hpresented.symm.trans htoken
    cases hparts.symm.trans hsplit
    exact ⟨[0, 0, 0], hbytes, hshort _⟩

/-- A signature with a character outside the alphabet. -/
theorem token_not_refused :
    (∀ members : List (String × Json Nat), "a.b.*".toList ≠
      signToken crypto (.obj members) Sample.key) ∧
    authenticateRequest (J := Unit) crypto (some Sample.key.secret) 0 (some "Bearer a.b.*") =
      throw .other ∧
    Sync.errorReply (J := Unit) (.error .other) = .error 500 "Internal server error." ∧
    ¬ Refused Unit crypto Sample.key 0 (some "Bearer a.b.*") := by
  have hparts : "a.b.*".toList.splitOn '.' = [['a'], ['b'], ['*']] := by decide
  have hthrows : verifyToken crypto "a.b.*".toList Sample.key = .error .other := by
    have hatob : base64UrlDecode ['*'] = none := by decide +kernel
    rw [verifyToken, hparts]
    simp only [hatob]
  have hanswer : authenticateRequest (J := Unit) crypto (some Sample.key.secret) 0
      (some "Bearer a.b.*") = throw .other := by
    have htoken : presented (some "Bearer a.b.*") = some "a.b.*".toList := by decide
    rw [authenticateRequest_presented htoken (by decide), hthrows]
    rfl
  refine ⟨?_, hanswer, rfl, ?_⟩
  · intro members h
    have hsplit := congrArg (List.splitOn '.') h
    rw [hparts, signToken, signingInput, splitOn_parts (dot_not_mem_encodePart _)
      (dot_not_mem_encodePart _) (dot_not_mem_encode _)] at hsplit
    have hbytes := congrArg base64UrlDecode (List.cons.inj (List.cons.inj (List.cons.inj hsplit).2).2).1
    have hatob : base64UrlDecode ['*'] = none := by decide +kernel
    rw [base64UrlDecode_encode, hatob] at hbytes
    cases hbytes
  · intro h
    have hnull := h.token "a.b.*".toList (by decide)
    rw [hthrows] at hnull
    cases hnull

end Example

end Seance.Auth
