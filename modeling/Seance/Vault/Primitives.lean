import Seance.Vault.Model

namespace Seance.Vault

def keyLen : Nat := 32
def nonceLen : Nat := 24
def kdfSaltLen : Nat := 16
def defaultRsaBits : Nat := 4096

structure SecretKey where
  bytes : Bytes
  length : bytes.length = keyLen
  deriving DecidableEq

/-- Random bytes of the length XChaCha20-Poly1305 takes. -/
structure Nonce where
  bytes : Bytes
  length : bytes.length = nonceLen
  deriving DecidableEq

structure Salt where
  bytes : Bytes
  length : bytes.length = kdfSaltLen
  deriving DecidableEq

theorem Salt.ne_nil (s : Salt) : s.bytes ≠ [] := by
  intro h
  have hlength := s.length
  rw [h] at hlength
  cases hlength

/-- `Uuid::new_v4().to_string()` is never the empty string. -/
structure Uuid where
  text : String
  nonempty : text ≠ ""
  deriving DecidableEq

def SecretKey.fromSlice (bytes : Bytes) : VaultResult SecretKey :=
  if h : bytes.length = keyLen then .ok ⟨bytes, h⟩
  else .error (.invalidKeyLength keyLen bytes.length)

@[simp] theorem SecretKey.fromSlice_bytes (k : SecretKey) :
    SecretKey.fromSlice k.bytes = .ok k := by
  simp [fromSlice, k.length]

theorem SecretKey.bytes_of_fromSlice {b : Bytes} {k : SecretKey}
    (h : SecretKey.fromSlice b = .ok k) : k.bytes = b := by
  unfold fromSlice at h
  split at h
  · cases h
    rfl
  · cases h

theorem SecretKey.eq_of_bytes {k k' : SecretKey} (h : k.bytes = k'.bytes) : k = k' := by
  cases k
  cases k'
  cases h
  rfl

/-- Why Argon2 gives no key: bad parameters, or a failed hash. -/
inductive KdfFailure where
  | params (message : String)
  | hashing (message : String)
  deriving DecidableEq, Repr

/-- A serde type's JSON writer and reader. -/
structure JsonCodec (T : Type) where
  toVec : T → Bytes
  fromSlice : Bytes → Except String T

/-- The part of an OpenSSH public key that decides its algorithm. -/
inductive SshKeyData where
  | ed25519
  | rsa (modulus : Option Bytes)
  | other
  deriving DecidableEq, Repr

structure SshPrivateKey where
  keyData : SshKeyData
  publicKeyOpenssh : Except String String
  isEncrypted : Bool

/-- A freshly made key pair as `generate_private_key` reads it. -/
structure GeneratedKey where
  publicKeyOpenssh : Except String String
  openssh : Except String String
  isEncrypted : Bool

/-- The crates the vault rests on. The associated data is the text whose bytes
the cipher is given. -/
structure Primitives where
  aeadEncrypt : SecretKey → Bytes → Bytes → String → Option Bytes
  aeadDecrypt : SecretKey → Bytes → Bytes → String → Option Bytes
  argon2id : KdfParams → String → Except KdfFailure SecretKey
  hostJson : JsonCodec VaultHostProfile
  credentialJson : JsonCodec VaultPasswordCredential
  privateKeyJson : JsonCodec VaultPrivateKey
  portForwardJson : JsonCodec VaultPortForwardProfile
  base64 : Bytes → String
  fromOpenssh : String → Except String SshPrivateKey

/-- Decryption undoes encryption and succeeds on nothing that was sealed under
another key, nonce or associated data. -/
structure IdealAead (p : Primitives) : Prop where
  seals : ∀ k n m a, n.length = nonceLen → ∃ c, p.aeadEncrypt k n m a = some c
  opens : ∀ k n m a c, p.aeadEncrypt k n m a = some c → p.aeadDecrypt k n c a = some m
  only : ∀ k n m a c k' n' a' m', p.aeadEncrypt k n m a = some c →
    p.aeadDecrypt k' n' c a' = some m' → k' = k ∧ n' = n ∧ a' = a

/-- No two of the given passphrases share a wrap key under one parameter set. -/
def IdealKdf (p : Primitives) (passphrases : Set String) : Prop :=
  ∀ params q q' k, q ∈ passphrases → q' ∈ passphrases →
    p.argon2id params q = .ok k → p.argon2id params q' = .ok k → q = q'

/-- What one call takes from the world outside: clock readings in the order they
are made, random identifiers, keys and nonces by the use made of them, and how
the device secret store answers. -/
structure World where
  now : Nat → Int
  vaultUuid : Uuid
  bundleUuid : Uuid
  deviceUuid : Uuid
  recordUuid : Uuid
  masterKey : SecretKey
  deviceKey : SecretKey
  recordKey : SecretKey
  recoveryNonce : Nonce
  deviceNonce : Nonce
  payloadNonce : Nonce
  keyNonce : Nonce
  salt : Salt
  getSecretFails : Option DeviceSecretError
  setSecretFails : Option DeviceSecretError
  sshKey : GenerateKeyAlgorithm → Except String GeneratedKey

/-- `KdfParams::recommended` with its salt already drawn. -/
def KdfParams.recommended (salt : Salt) : KdfParams where
  salt := salt.bytes
  memoryKib := 131072
  iterations := 4
  parallelism := 4

def KdfParams.deriveWrapKey (p : Primitives) (params : KdfParams) (passphrase : String) :
    VaultResult SecretKey :=
  match p.argon2id params passphrase with
  | .ok k => .ok k
  | .error (.params m) => .error (.invalidKdfConfig m)
  | .error (.hashing m) => .error (.passphraseDerivationFailed m)

structure CipherEnvelope where
  nonce : Bytes
  ciphertext : Bytes
  deriving DecidableEq, Repr

def encrypt (p : Primitives) (key : SecretKey) (nonce : Nonce) (plaintext : Bytes)
    (aad : String) : VaultResult CipherEnvelope :=
  match p.aeadEncrypt key nonce.bytes plaintext aad with
  | some c => .ok ⟨nonce.bytes, c⟩
  | none => .error .encryptionFailed

def decrypt (p : Primitives) (key : SecretKey) (nonce ciphertext : Bytes) (aad : String) :
    VaultResult Bytes :=
  if nonce.length ≠ nonceLen then .error (.invalidNonceLength nonceLen nonce.length)
  else
    match p.aeadDecrypt key nonce ciphertext aad with
    | some m => .ok m
    | none => .error .decryptionFailed

theorem deriveWrapKey_ok {p : Primitives} {params : KdfParams} {q : String} {k : SecretKey} :
    params.deriveWrapKey p q = .ok k ↔ p.argon2id params q = .ok k := by
  unfold KdfParams.deriveWrapKey
  cases p.argon2id params q with
  | ok k' => simp
  | error e => cases e <;> simp

theorem encrypt_ok {p : Primitives} {k : SecretKey} {n : Nonce} {m : Bytes} {a : String}
    {env : CipherEnvelope} :
    encrypt p k n m a = .ok env ↔
      env.nonce = n.bytes ∧ p.aeadEncrypt k n.bytes m a = some env.ciphertext := by
  obtain ⟨n', c'⟩ := env
  unfold encrypt
  cases p.aeadEncrypt k n.bytes m a with
  | none => simp
  | some c => simp [eq_comm]

theorem decrypt_ok {p : Primitives} {k : SecretKey} {n c m : Bytes} {a : String} :
    decrypt p k n c a = .ok m ↔ n.length = nonceLen ∧ p.aeadDecrypt k n c a = some m := by
  unfold decrypt
  split
  · rename_i hn
    simp [hn]
  · rename_i hn
    cases p.aeadDecrypt k n c a with
    | none => simp
    | some m' => simp [not_not.mp hn]

section Ideal

variable {p : Primitives} (ideal : IdealAead p)

include ideal

theorem IdealAead.encrypt_exists (k : SecretKey) (n : Nonce) (m : Bytes) (a : String) :
    ∃ env, encrypt p k n m a = .ok env := by
  obtain ⟨c, hc⟩ := ideal.seals k n.bytes m a n.length
  exact ⟨⟨n.bytes, c⟩, encrypt_ok.mpr ⟨rfl, hc⟩⟩

/-- An envelope opens under its own key and associated data. -/
theorem IdealAead.decrypt_encrypt {k : SecretKey} {n : Nonce} {m : Bytes} {a : String}
    {env : CipherEnvelope} (h : encrypt p k n m a = .ok env) :
    decrypt p k env.nonce env.ciphertext a = .ok m := by
  obtain ⟨hn, hc⟩ := encrypt_ok.mp h
  rw [decrypt_ok, hn]
  exact ⟨n.length, ideal.opens _ _ _ _ _ hc⟩

/-- Whatever opens an envelope is the key, the associated data and the plaintext
it was sealed with. -/
theorem IdealAead.of_decrypt {k k' : SecretKey} {n : Nonce} {m m' : Bytes} {a a' : String}
    {env : CipherEnvelope} (h : encrypt p k n m a = .ok env)
    (hd : decrypt p k' env.nonce env.ciphertext a' = .ok m') :
    k' = k ∧ a' = a ∧ m' = m := by
  obtain ⟨hn, hc⟩ := encrypt_ok.mp h
  obtain ⟨_, hd⟩ := decrypt_ok.mp hd
  obtain ⟨rfl, _, rfl⟩ := ideal.only _ _ _ _ _ _ _ _ _ hc hd
  have ho := ideal.opens _ _ _ _ _ hc
  rw [hn, ho] at hd
  exact ⟨rfl, rfl, (Option.some.inj hd).symm⟩

end Ideal

end Seance.Vault
