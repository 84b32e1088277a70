import Mathlib
import Seance.Lib.Base64
import Seance.Lib.Json
import Seance.Sync.Alone

namespace Seance.Auth
open Lib

/-- `String.prototype.length`: characters beyond the basic plane count twice. -/
def utf16Length (cs : List Char) : Nat :=
  (cs.map (fun c => if c.toNat < 0x10000 then 1 else 2)).sum

def toUrlDigit (c : Char) : Char := if c = '+' then '-' else if c = '/' then '_' else c

def ofUrlDigit (c : Char) : Char := if c = '-' then '+' else if c = '_' then '/' else c

def base64UrlEncode (bytes : List UInt8) : List Char :=
  ((Base64.btoa bytes).map toUrlDigit).rdropWhile (fun c => c = '=')

/-- None where `atob` throws. -/
def base64UrlDecode (value : List Char) : Option (List UInt8) :=
  let normalized := value.map ofUrlDigit
  let residue := if utf16Length normalized % 4 = 0 then 4 else utf16Length normalized % 4
  Base64.atob (normalized ++ List.replicate ((4 - residue) % 4) '=')

/-- `TextEncoder.encode`. -/
def encodeText (text : List Char) : List UInt8 := (String.ofList text).toUTF8.data.toList

/-- `TextDecoder.decode`, with what it makes of bytes that are no UTF-8. A byte order mark at the
start is left out. -/
def decodeText (invalid : List UInt8 → List Char) (bytes : List UInt8) : List Char :=
  let text := match String.fromUTF8? ⟨bytes.toArray⟩ with
    | some s => s.toList
    | none => invalid bytes
  match text with
  | '\ufeff' :: cs => cs
  | cs => cs

section Digits

theorem digit_url {n : Nat} (h : n < 64) : toUrlDigit (Base64.digit n) ≠ '=' ∧
    toUrlDigit (Base64.digit n) ≠ '.' ∧ ofUrlDigit (toUrlDigit (Base64.digit n)) = Base64.digit n ∧
    (Base64.digit n).toNat < 0x10000 := by
  have hall : ∀ m : Fin 64, toUrlDigit (Base64.digit m) ≠ '=' ∧
      toUrlDigit (Base64.digit m) ≠ '.' ∧
      ofUrlDigit (toUrlDigit (Base64.digit m)) = Base64.digit m ∧
      (Base64.digit m).toNat < 0x10000 := by decide +kernel
  exact hall ⟨n, h⟩

/-- The encoder leaves the digits, without what fills up the last group. -/
theorem base64UrlEncode_eq (bytes : List UInt8) :
    base64UrlEncode bytes = (Base64.digits bytes).map (fun n => toUrlDigit (Base64.digit n)) := by
  have hlast : ∀ cs : List Char, (∀ c ∈ cs, c ≠ '=') →
      cs.rdropWhile (fun c => c = '=') = cs := by
    intro cs hcs
    rw [List.rdropWhile_eq_self_iff]
    intro hne
    simpa using hcs _ (List.getLast_mem hne)
  have hdigits : ∀ c ∈ (Base64.digits bytes).map (fun n => toUrlDigit (Base64.digit n)),
      c ≠ '=' := by
    intro c hc
    obtain ⟨n, hn, rfl⟩ := List.mem_map.mp hc
    exact (digit_url (Base64.digits_lt bytes n hn)).1
  have hpad : toUrlDigit '=' = '=' := rfl
  rw [base64UrlEncode, Base64.btoa, List.map_append, List.map_map]
  change ((Base64.digits bytes).map (fun n => toUrlDigit (Base64.digit n)) ++ _).rdropWhile _ = _
  rcases Base64.padding_cases bytes with ⟨h, _⟩ | ⟨h, _⟩ | ⟨h, _⟩
  · rw [h, List.map_nil, List.append_nil, hlast _ hdigits]
  · rw [h, List.map_cons, List.map_nil, hpad, List.rdropWhile_concat_pos _ _ _ (by simp),
      hlast _ hdigits]
  · have hsplit : ∀ cs : List Char, cs ++ ['=', '='] = (cs ++ ['=']) ++ ['='] := by simp
    rw [h, List.map_cons, List.map_cons, List.map_nil, hpad, hsplit,
      List.rdropWhile_concat_pos _ _ _ (by simp), List.rdropWhile_concat_pos _ _ _ (by simp),
      hlast _ hdigits]

theorem utf16Length_eq {cs : List Char} (h : ∀ c ∈ cs, c.toNat < 0x10000) :
    utf16Length cs = cs.length := by
  induction cs with
  | nil => rfl
  | cons c cs ih =>
    have htail := ih (fun d hd => h d (List.mem_cons_of_mem _ hd))
    unfold utf16Length at htail ⊢
    rw [List.map_cons, List.sum_cons, htail, if_pos (h c List.mem_cons_self), List.length_cons,
      Nat.add_comm]

theorem base64UrlDecode_encode (bytes : List UInt8) :
    base64UrlDecode (base64UrlEncode bytes) = some bytes := by
  have hdigits : (base64UrlEncode bytes).map ofUrlDigit =
      (Base64.digits bytes).map Base64.digit := by
    rw [base64UrlEncode_eq, List.map_map]
    refine List.map_congr_left ?_
    intro n hn
    exact (digit_url (Base64.digits_lt bytes n hn)).2.2.1
  have hlength : utf16Length ((Base64.digits bytes).map Base64.digit) =
      (Base64.digits bytes).length := by
    rw [utf16Length_eq, List.length_map]
    intro c hc
    obtain ⟨n, hn, rfl⟩ := List.mem_map.mp hc
    exact (digit_url (Base64.digits_lt bytes n hn)).2.2.2
  rw [← Base64.atob_btoa bytes, base64UrlDecode, hdigits, hlength, Base64.btoa]
  -- the residues that the encoder leaves are the ones the decoder fills up
  rcases Base64.padding_cases bytes with ⟨hpad, h⟩ | ⟨hpad, h⟩ | ⟨hpad, h⟩ <;>
    simp [h, hpad, List.replicate]

/-- An encoded text has no dots. -/
theorem dot_not_mem_encode (bytes : List UInt8) : '.' ∉ base64UrlEncode bytes := by
  rw [base64UrlEncode_eq]
  intro h
  obtain ⟨n, hn, he⟩ := List.mem_map.mp h
  exact (digit_url (Base64.digits_lt bytes n hn)).2.1 he

end Digits

/-- A text that starts with no byte order mark is decoded to itself. -/
theorem decodeText_encodeText (invalid : List UInt8 → List Char) {text : List Char}
    (h : text.head? ≠ some '\ufeff') : decodeText invalid (encodeText text) = text := by
  have hbytes : (⟨(encodeText text).toArray⟩ : ByteArray) = (String.ofList text).toUTF8 := by
    rw [encodeText, Array.toArray_toList]
  have hread : String.fromUTF8? (String.ofList text).toUTF8 = some (String.ofList text) :=
    dif_pos (String.ofList text).isValidUTF8
  rw [decodeText, hbytes, hread]
  simp only [String.toList_ofList]
  split
  · exact absurd rfl h
  · rfl

/-- What the runtime brings to tokens: numbers, the digests of WebCrypto, the decoder's choice for
bytes that are no UTF-8, and how values of other types than expected are compared and bound. -/
structure Crypto (N : Type) where
  numerals : Numerals N
  ofInt : Int → N
  isZero : N → Bool
  lessThan : Option (Json N) → Int → Bool
  bindText : Option (Json N) → Except Sync.Failure (Option String)
  bindText_str : ∀ s, bindText (some (.str s)) = .ok (some s)
  hmac : List UInt8 → List UInt8 → List UInt8
  sha256 : List UInt8 → List UInt8
  decodeInvalid : List UInt8 → List Char

/-- A secret that WebCrypto imports as a key. -/
structure SigningKey where
  secret : String
  nonempty : secret ≠ ""

section Tokens

variable {N : Type} (C : Crypto N)

def tokenHeader : Json N := .obj [("alg", .str "HS256"), ("typ", .str "JWT")]

/-- A JSON value as a part of a token. -/
def encodePart (v : Json N) : List Char :=
  base64UrlEncode (encodeText (Json.stringify C.numerals v).toList)

def signingInput (payload : Json N) : List Char :=
  encodePart C tokenHeader ++ '.' :: encodePart C payload

/-- HMAC-SHA-256 of a text. -/
def mac (key : SigningKey) (text : List Char) : List UInt8 :=
  C.hmac (encodeText key.secret.toList) (encodeText text)

def signToken (payload : Json N) (key : SigningKey) : List Char :=
  signingInput C payload ++ '.' :: base64UrlEncode (mac C key (signingInput C payload))

/-- What is read from the middle part of a token, none where `verifyToken` catches an error. -/
def readBody (body : List Char) : Option (Json N) :=
  (base64UrlDecode body).bind
    (fun bytes => Json.parse C.numerals (String.ofList (decodeText C.decodeInvalid bytes)))

/-- Only the reading of the body is inside the `try`; an error of the signature's decoding is not
caught. -/
def verifyToken (token : List Char) (key : SigningKey) :
    Except Sync.Failure (Option (Json N)) :=
  match token.splitOn '.' with
  | [header, body, signature] =>
    match base64UrlDecode signature with
    | none => .error .other
    | some bytes =>
      if bytes = mac C key (header ++ '.' :: body) then .ok (readBody C body) else .ok none
  | _ => .ok none

/-- White space of `String.prototype.trim`. -/
def isTrimmed (c : Char) : Bool :=
  c ∈ ['\t', '\n', '\x0b', '\x0c', '\r', ' ', '\u00a0', '\u1680', '\u2028', '\u2029', '\u202f',
    '\u205f', '\u3000', '\ufeff'] || ('\u2000' ≤ c && c ≤ '\u200a')

def trim (cs : List Char) : List Char := (cs.dropWhile isTrimmed).rdropWhile isTrimmed

def member (name : String) : Json N → Option (Json N)
  | .obj members => (members.find? (fun m => m.1 = name)).map Prod.snd
  | _ => none

def truthy : Json N → Bool
  | .null => false
  | .bool b => b
  | .num n => !C.isZero n
  | .str s => s ≠ ""
  | .arr _ => true
  | .obj _ => true

def bearer : List Char := "Bearer ".toList

theorem ne_empty_of_long {secret : String} (h : 16 ≤ utf16Length secret.toList) : secret ≠ "" := by
  rintro rfl
  exact absurd h (by decide)

def secretFromEnv (secret : Option String) : Except Sync.Failure SigningKey :=
  match secret with
  | some secret =>
    if h : 16 ≤ utf16Length secret.toList then .ok ⟨secret, ne_empty_of_long h⟩
    else .error (.http 500 "SYNC_SIGNING_KEY is not configured.")
  | none => .error (.http 500 "SYNC_SIGNING_KEY is not configured.")

variable {J : Type}

/-- A check that awaits nothing. -/
def liftExcept {α : Type} (x : Except Sync.Failure α) : Sync.Handler J α := ExceptT.mk (pure x)

/-- `assertUserActive` of a value that need not be a string. -/
def assertSubjectActive (sub : Option (Json N)) : Sync.Handler J Sync.AuthenticatedUser := do
  match ← liftExcept (C.bindText sub) with
  | some userId => Sync.assertUserActive userId
  | none => Sync.httpError 401 "User is not authorized."

def authenticateRequest (secret : Option String) (now : Int) (authorization : Option String) :
    Sync.Handler J Sync.AuthenticatedUser :=
  match authorization with
  | none => Sync.httpError 401 "Missing bearer token."
  | some value =>
    if bearer <+: value.toList then do
      let key ← liftExcept (secretFromEnv secret)
      let payload ← liftExcept (verifyToken C (trim (value.toList.drop bearer.length)) key)
      match payload with
      | none => Sync.httpError 401 "Access token is invalid."
      | some payload =>
        if !truthy C payload || C.lessThan (member "exp" payload) now then
          Sync.httpError 401 "Access token is invalid."
        else assertSubjectActive C (member "sub" payload)
    else Sync.httpError 401 "Missing bearer token."

end Tokens

section Verification

variable {N : Type} {C : Crypto N} {key : SigningKey}

theorem splitOn_parts {header body signature : List Char} (hh : '.' ∉ header) (hb : '.' ∉ body)
    (hs : '.' ∉ signature) :
    (header ++ '.' :: body ++ '.' :: signature).splitOn '.' = [header, body, signature] := by
  rw [List.append_assoc, List.cons_append, List.splitOn_append_cons_self_of_not_mem hh,
    List.splitOn_append_cons_self_of_not_mem hb, List.splitOn_eq_singleton hs]

/-- What a text is split into has no mark in it. -/
theorem not_mem_splitOn {mark : Char} {cs part : List Char} (h : part ∈ cs.splitOn mark) :
    mark ∉ part := by
  induction cs generalizing part with
  | nil =>
    rw [List.splitOn_nil, List.mem_singleton] at h
    subst h
    exact List.not_mem_nil
  | cons c cs ih =>
    rw [List.splitOn_cons_eq_if_modifyHead] at h
    split at h
    · rcases List.mem_cons.mp h with rfl | h
      · exact List.not_mem_nil
      · exact ih h
    · rename_i hc
      cases hparts : cs.splitOn mark with
      | nil => exact absurd hparts (List.splitOn_ne_nil mark cs)
      | cons first rest =>
        rw [hparts, List.modifyHead_cons] at h
        rw [hparts] at ih
        rcases List.mem_cons.mp h with rfl | h
        · intro hmem
          rcases List.mem_cons.mp hmem with rfl | hmem
          · simp at hc
          · exact ih List.mem_cons_self hmem
        · exact ih (List.mem_cons_of_mem _ h)

theorem dot_not_mem_encodePart (v : Json N) : '.' ∉ encodePart C v := dot_not_mem_encode _

/-- The parts of a signed text are the ones it was made of. -/
theorem signingInput_inj {header body : List Char} {payload : Json N} (hh : '.' ∉ header)
    (h : header ++ '.' :: body = signingInput C payload) :
    header = encodePart C tokenHeader ∧ body = encodePart C payload := by
  rw [signingInput] at h
  have hsplit := congrArg (List.splitOn '.') h
  rw [List.splitOn_append_cons_self_of_not_mem hh,
    List.splitOn_append_cons_self_of_not_mem (dot_not_mem_encodePart _)] at hsplit
  have hheader := (List.cons.inj hsplit).1
  rw [hheader] at h
  exact ⟨hheader, (List.cons.inj (List.append_cancel_left h)).2⟩

theorem readBody_encodePart {members : List (String × Json N)}
    (h : (Json.obj members).Distinct) :
    readBody C (encodePart C (.obj members)) = some (.obj members) := by
  have hhead : (Json.stringify C.numerals (.obj members)).toList.head? ≠ some '\ufeff' := by
    rw [Json.stringify, String.toList_ofList]
    cases members with
    | nil => simp [Json.print]
    | cons m ms => simp [Json.print]
  rw [readBody, encodePart, base64UrlDecode_encode, Option.bind_some,
    decodeText_encodeText _ hhead, String.ofList_toList, Json.parse_stringify _ h]

theorem verifyToken_parts {header body signature : List Char} (hh : '.' ∉ header)
    (hb : '.' ∉ body) (hs : '.' ∉ signature) :
    verifyToken C (header ++ '.' :: body ++ '.' :: signature) key =
      match base64UrlDecode signature with
      | none => .error .other
      | some bytes =>
        if bytes = mac C key (header ++ '.' :: body) then .ok (readBody C body) else .ok none := by
  rw [verifyToken, splitOn_parts hh hb hs]

theorem verifyToken_signToken {members : List (String × Json N)}
    (h : (Json.obj members).Distinct) :
    verifyToken C (signToken C (.obj members) key) key = .ok (some (.obj members)) := by
  rw [signToken, signingInput, verifyToken_parts (dot_not_mem_encodePart _)
    (dot_not_mem_encodePart _) (dot_not_mem_encode _), base64UrlDecode_encode]
  simp only [↓reduceIte, readBody_encodePart h]

theorem secretFromEnv_eq_ok {secret : Option String} :
    secretFromEnv secret = .ok key ↔
      secret = some key.secret ∧ 16 ≤ utf16Length key.secret.toList := by
  constructor
  · intro h
    cases secret with
    | none => cases h
    | some text =>
      unfold secretFromEnv at h
      dsimp only at h
      split at h
      · rename_i hlong
        cases h
        exact ⟨rfl, hlong⟩
      · cases h
  · rintro ⟨rfl, hlong⟩
    exact dif_pos hlong

variable {J : Type} {authorization secret : Option String}

/-- What follows "Bearer " in an Authorization header. -/
def presented (authorization : Option String) : Option (List Char) :=
  authorization.bind (fun value =>
    if bearer <+: value.toList then some (trim (value.toList.drop bearer.length)) else none)

theorem authenticateRequest_not_presented (h : presented authorization = none) (now : Int) :
    authenticateRequest (J := J) C secret now authorization =
      Sync.httpError 401 "Missing bearer token." := by
  cases authorization with
  | none => rfl
  | some value => exact if_neg (by simpa [presented] using h)

theorem authenticateRequest_no_key {token : List Char} {e : Sync.Failure}
    (h : presented authorization = some token) (hkey : secretFromEnv secret = .error e)
    (now : Int) : authenticateRequest (J := J) C secret now authorization = throw e := by
  obtain ⟨value, rfl, hvalue⟩ := Option.bind_eq_some_iff.mp h
  obtain ⟨hbearer, _⟩ := Option.ite_none_right_eq_some.mp hvalue
  rw [authenticateRequest, if_pos hbearer, hkey]
  rfl

/-- What becomes of a token that was presented, under a key that is long enough. -/
theorem authenticateRequest_presented {token : List Char}
    (h : presented authorization = some token) (hlong : 16 ≤ utf16Length key.secret.toList)
    (now : Int) : authenticateRequest (J := J) C (some key.secret) now authorization =
      (do
        let payload ← liftExcept (verifyToken C token key)
        match payload with
        | none => Sync.httpError 401 "Access token is invalid."
        | some payload =>
          if !truthy C payload || C.lessThan (member "exp" payload) now then
            Sync.httpError 401 "Access token is invalid."
          else assertSubjectActive C (member "sub" payload)) := by
  obtain ⟨value, rfl, hvalue⟩ := Option.bind_eq_some_iff.mp h
  obtain ⟨hbearer, htoken⟩ := Option.ite_none_right_eq_some.mp hvalue
  cases htoken
  have hsecret : secretFromEnv (some key.secret) = .ok key := dif_pos hlong
  rw [authenticateRequest, if_pos hbearer, hsecret]
  rfl

end Verification

end Seance.Auth
