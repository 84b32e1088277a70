import Seance.Lib.Code
import Seance.Vault.Calls
import Seance.Vault.Opening

namespace Seance.Vault.Sample
open Lib

/-- A self-delimiting spelling of a text: a 1 and three bytes for each character, then a 0. -/
def spell : List Char → Bytes
  | [] => [0]
  | c :: cs => 1 :: UInt8.ofNat c.toNat :: UInt8.ofNat (c.toNat / 256) ::
      UInt8.ofNat (c.toNat / 65536) :: spell cs

theorem char_toNat_lt (c : Char) : c.toNat < 0x110000 := by
  rcases c.valid with h | ⟨_, h⟩
  · exact Nat.lt_trans h (by decide)
  · exact h

theorem char_of_bytes {c d : Char} (h0 : UInt8.ofNat c.toNat = UInt8.ofNat d.toNat)
    (h1 : UInt8.ofNat (c.toNat / 256) = UInt8.ofNat (d.toNat / 256))
    (h2 : UInt8.ofNat (c.toNat / 65536) = UInt8.ofNat (d.toNat / 65536)) : c = d := by
  have e0 := congrArg UInt8.toNat h0
  have e1 := congrArg UInt8.toNat h1
  have e2 := congrArg UInt8.toNat h2
  simp only [UInt8.toNat_ofNat'] at e0 e1 e2
  have hc := char_toNat_lt c
  have hd := char_toNat_lt d
  apply Char.toNat_inj.mp
  omega

/-- A spelling is no proper prefix of another, so texts can be read back. -/
theorem spell_append_inj {cs ds : List Char} {x y : Bytes} (h : spell cs ++ x = spell ds ++ y) :
    cs = ds ∧ x = y := by
  induction cs generalizing ds with
  | nil =>
    cases ds with
    | nil => exact ⟨rfl, by simpa [spell] using h⟩
    | cons d ds => simp [spell] at h
  | cons c cs ih =>
    cases ds with
    | nil => simp [spell] at h
    | cons d ds =>
      simp only [spell, List.cons_append, List.cons.injEq, true_and] at h
      obtain ⟨h0, h1, h2, ht⟩ := h
      obtain ⟨rfl, rfl⟩ := ih ht
      exact ⟨by rw [char_of_bytes h0 h1 h2], rfl⟩

/-- What a sealed message starts with: its key, nonce and associated data. -/
def sealing (k : SecretKey) (n : Bytes) (aad : String) : Bytes := k.bytes ++ n ++ spell aad.toList

def aeadEncrypt (k : SecretKey) (n m : Bytes) (aad : String) : Option Bytes :=
  if n.length = nonceLen then some (sealing k n aad ++ m) else none

def aeadDecrypt (k : SecretKey) (n c : Bytes) (aad : String) : Option Bytes :=
  if n.length = nonceLen then c.dropPrefix? (sealing k n aad) else none

def pad (n : Nat) (b : Bytes) : Bytes := (b ++ List.replicate n 0).take n

theorem pad_length (n : Nat) (b : Bytes) : (pad n b).length = n := by
  simp [pad]

/-- A key derivation that keeps short passphrases apart. -/
def argon2id (_ : KdfParams) (passphrase : String) : Except KdfFailure SecretKey :=
  .ok ⟨pad keyLen (spell passphrase.toList), pad_length _ _⟩

def key (b : UInt8) : SecretKey := ⟨List.replicate keyLen b, List.length_replicate⟩
def nonce (b : UInt8) : Nonce := ⟨List.replicate nonceLen b, List.length_replicate⟩
def salt (b : UInt8) : Salt := ⟨List.replicate kdfSaltLen b, List.length_replicate⟩

def credential (id : String) : VaultPasswordCredential where
  id := id
  label := "db"
  usernameHint := none
  secret := "hunter2"

def host (id : String) : VaultHostProfile where
  id := id
  label := "prod"
  hostname := "example.com"
  port := 22
  username := "root"
  notes := none
  authOrder := []

/-- A codec for values of which only the id varies. -/
def codec {T : Type} (id : T → String) (make : String → T) (ids : List String) : JsonCodec T where
  toVec value := spell (id value).toList
  fromSlice bytes :=
    match ids.find? (fun i => spell i.toList = bytes) with
    | some i => .ok (make i)
    | none => .error "unknown payload"

def primitives : Primitives where
  aeadEncrypt := aeadEncrypt
  aeadDecrypt := aeadDecrypt
  argon2id := argon2id
  hostJson := codec VaultHostProfile.id host ["a", "b"]
  credentialJson := codec VaultPasswordCredential.id credential ["a", "b"]
  privateKeyJson := ⟨fun _ => [], fun _ => .error "unknown payload"⟩
  portForwardJson := ⟨fun _ => [], fun _ => .error "unknown payload"⟩
  base64 := fun bytes => toString bytes.length
  fromOpenssh := fun _ => .error "unknown key"

theorem dropPrefix?_append (xs ys : Bytes) : (xs ++ ys).dropPrefix? xs = some ys := by
  induction xs with
  | nil => simp
  | cons x xs ih => simp [List.dropPrefix?, ih]

theorem of_dropPrefix? {xs ys zs : Bytes} (h : xs.dropPrefix? ys = some zs) :
    xs = ys ++ zs := by
  induction ys generalizing xs with
  | nil => simpa using h
  | cons y ys ih =>
    cases xs with
    | nil => simp [List.dropPrefix?] at h
    | cons x xs =>
      simp only [List.dropPrefix?, beq_iff_eq, Option.ite_none_right_eq_some] at h
      obtain ⟨rfl, h⟩ := h
      rw [ih h, List.cons_append]

theorem ideal_aead : IdealAead primitives where
  seals k n m a hn := ⟨sealing k n a ++ m, if_pos hn⟩
  opens k n m a c h := by
    simp only [primitives, aeadEncrypt, aeadDecrypt] at h ⊢
    split at h
    · rename_i hn
      cases h
      rw [if_pos hn, dropPrefix?_append]
    · cases h
  only k n m a c k' n' a' m' h h' := by
    simp only [primitives, aeadEncrypt, aeadDecrypt] at h h'
    split at h
    · split at h'
      · rename_i hn hn'
        cases h
        have he := of_dropPrefix? h'
        simp only [sealing, List.append_assoc] at he
        obtain ⟨hk, he⟩ := List.append_inj he (by rw [k.length, k'.length])
        obtain ⟨hnn, he⟩ := List.append_inj he (by rw [hn, hn'])
        obtain ⟨ha, _⟩ := spell_append_inj he
        refine ⟨?_, hnn.symm, (String.toList_inj.mp ha).symm⟩
        obtain ⟨b, hb⟩ := k
        obtain ⟨b', hb'⟩ := k'
        simp only [SecretKey.mk.injEq]
        exact hk.symm
      · cases h'
    · cases h

theorem ideal_kdf : IdealKdf primitives {"pw", "new"} := by
  have hne : pad keyLen (spell "pw".toList) ≠ pad keyLen (spell "new".toList) := by decide
  rintro params q q' k (rfl | rfl) (rfl | rfl) h h'
  · rfl
  · exact absurd (congrArg SecretKey.bytes (Except.ok.inj (h.trans h'.symm))) hne
  · exact absurd (congrArg SecretKey.bytes (Except.ok.inj (h'.trans h.symm))) hne
  · rfl

/-- One call's draws, all marked with one byte. -/
def world (b : UInt8) : World where
  now _ := b.toNat
  vaultUuid := ⟨"v", by decide⟩
  bundleUuid := ⟨"w", by decide⟩
  deviceUuid := ⟨"d", by decide⟩
  recordUuid := ⟨"u", by decide⟩
  masterKey := key b
  deviceKey := key (b + 1)
  recordKey := key (b + 2)
  recoveryNonce := nonce b
  deviceNonce := nonce b
  payloadNonce := nonce b
  keyNonce := nonce b
  salt := salt b
  getSecretFails := none
  setSecretFails := none
  sshKey _ := .error "no key"

def header : VaultHeader where
  vaultId := "v"
  schemaVersion := vaultSchemaVersion
  cipher := "xchacha20poly1305"
  recoveryKdf := KdfParams.recommended (salt 1)
  createdAt := 0
  updatedAt := 0
  lastLogicalClock := 0

/-- A locked, empty vault. -/
def store : VaultStore :=
  let fresh := VaultStore.fresh "vault.sqlite" .empty
  { fresh with
    header := some header
    conn := ⟨fresh.conn.db.withHeader header (Nat.zero_le _), []⟩ }

/-- A version of a record whose sealed parts are marked with one byte. -/
def record (id : String) (kind : RecordKind) (clock : Nat) (b : UInt8) : VaultDeltaRecord where
  recordId := id
  kind := kind
  version := recordSchemaVersion
  logicalClock := clock
  modifiedAt := 0
  deletedAt := none
  keyNonce := [b]
  wrappedRecordKey := [b]
  payloadNonce := [b]
  payloadCiphertext := [b]

def delta (toClock : Nat) (records : List VaultDeltaRecord) : VaultDelta where
  vaultId := "v"
  fromClock := 0
  toClock := toClock
  records := records

/-- The bundle that wraps `key 1` under the passphrase "pw". -/
def bundle : RecoveryBundle where
  bundleId := "w"
  params := KdfParams.recommended (salt 1)
  wrappingNonce := (nonce 1).bytes
  wrappedMasterKey :=
    sealing ⟨pad keyLen (spell "pw".toList), pad_length _ _⟩ (nonce 1).bytes
      (recoveryAad primitives "v" (KdfParams.recommended (salt 1))) ++ (key 1).bytes
  createdAt := 0
  updatedAt := 0

def snapshot (records : List VaultDeltaRecord) : VaultSnapshot where
  header := header
  recoveryBundle := bundle
  deviceEnrollments := []
  records := records

/-- A fresh store in which a snapshot has been applied. -/
def bootstrap (path : String) (snapshot : VaultSnapshot) : VaultStore :=
  finalState (applySnapshot snapshot) (VaultStore.fresh path .empty)

section Codes

def char : Code UInt8 Char where
  put c := [UInt8.ofNat c.toNat, UInt8.ofNat (c.toNat / 256), UInt8.ofNat (c.toNat / 65536)]
  get
    | b0 :: b1 :: b2 :: rest =>
      some (Char.ofNat (b0.toNat + 256 * b1.toNat + 65536 * b2.toNat), rest)
    | _ => none
  get_put c rest := by
    have hc := char_toNat_lt c
    have hsum : c.toNat % 256 + 256 * (c.toNat / 256 % 256) + 65536 * (c.toNat / 65536 % 256) =
        c.toNat := by omega
    simp only [List.cons_append, List.nil_append, UInt8.toNat_ofNat', hsum, Char.ofNat_toNat]

def text : Code UInt8 String :=
  (char.list 1 0 (by decide)).map String.ofList String.toList (by simp)

def number : Code UInt8 Nat := Code.nat 1 0 (by decide)

def optionalText : Code UInt8 (Option String) := text.option 1 0 (by decide)

/-- A password reference is a credential id alone, a key reference has a second part. -/
def authRef : Code UInt8 HostAuthRef :=
  (text.pair (optionalText.option 1 0 (by decide))).map
    (fun x => x.2.elim (.password x.1) (.privateKey x.1))
    (fun auth => match auth with
      | .password id => (id, none)
      | .privateKey id passphrase => (id, some passphrase))
    (by intro auth; cases auth <;> rfl)

def hostCode : Code UInt8 VaultHostProfile :=
  (text.pair (text.pair (text.pair (number.pair (text.pair
    (optionalText.pair (authRef.list 1 0 (by decide)))))))).map
    (fun x => ⟨x.1, x.2.1, x.2.2.1, x.2.2.2.1, x.2.2.2.2.1, x.2.2.2.2.2.1, x.2.2.2.2.2.2⟩)
    (fun h => (h.id, h.label, h.hostname, h.port, h.username, h.notes, h.authOrder))
    (fun _ => rfl)

def mode : Code UInt8 PortForwardMode :=
  number.map (fun n => if n = 0 then .local else .remote)
    (fun m => match m with
      | .local => 0
      | .remote => 1)
    (by intro m; cases m <;> rfl)

def portForwardCode : Code UInt8 VaultPortForwardProfile :=
  (text.pair (text.pair (text.pair (mode.pair (text.pair (number.pair (text.pair
    (number.pair optionalText)))))))).map
    (fun x => ⟨x.1, x.2.1, x.2.2.1, x.2.2.2.1, x.2.2.2.2.1, x.2.2.2.2.2.1, x.2.2.2.2.2.2.1,
      x.2.2.2.2.2.2.2.1, x.2.2.2.2.2.2.2.2⟩)
    (fun f => (f.id, f.hostId, f.label, f.mode, f.listenAddress, f.listenPort, f.targetAddress,
      f.targetPort, f.notes))
    (fun _ => rfl)

/-- No bits stand for the algorithm that has no size. -/
def privateKeyCode : Code UInt8 VaultPrivateKey :=
  (text.pair (text.pair ((number.option 1 0 (by decide)).pair (text.pair (text.pair
    ((Code.unit.option 1 0 (by decide)).pair (Code.unit.option 1 0 (by decide)))))))).map
    (fun x => ⟨x.1, x.2.1, x.2.2.1.elim .ed25519 .rsa, x.2.2.2.1, x.2.2.2.2.1,
      x.2.2.2.2.2.1.isSome, if x.2.2.2.2.2.2.isSome then .imported else .generated⟩)
    (fun k => (k.id, k.label,
      (match k.algorithm with
      | .ed25519 => none
      | .rsa bits => some bits),
      k.publicKeyOpenssh, k.privateKeyPem, if k.encryptedAtRest then some () else none,
      if k.source = .imported then some () else none))
    (by
      intro k
      obtain ⟨_, _, algorithm, _, _, encrypted, source⟩ := k
      cases algorithm <;> cases encrypted <;> cases source <;> rfl)

def jsonOf {T : Type} (code : Code UInt8 T) : JsonCodec T where
  toVec := code.put
  fromSlice bytes :=
    match code.read bytes with
    | some value => .ok value
    | none => .error "unknown payload"

theorem jsonOf_lossless {T : Type} (code : Code UInt8 T) : (jsonOf code).Lossless := by
  intro value
  simp only [jsonOf, code.read_put]

/-- The primitives with codecs that read every host and port forward back. -/
def codedPrimitives : Primitives :=
  { primitives with hostJson := jsonOf hostCode, portForwardJson := jsonOf portForwardCode }

theorem coded_ideal : IdealAead codedPrimitives :=
  ⟨ideal_aead.seals, ideal_aead.opens, ideal_aead.only⟩

end Codes

end Seance.Vault.Sample
