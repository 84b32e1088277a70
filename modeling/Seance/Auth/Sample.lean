import Seance.Auth.Handlers
import Seance.Sync.Stream

namespace Seance.Auth.Sample
open Lib

/-- Natural numbers in decimal. -/
def decimals : Numerals Nat where
  render := Nat.toDigits 10
  read cs := if cs.all Char.isDigit then some (Nat.ofDigitChars 10 cs 0) else none
  nonempty _ := Nat.toDigits_ne_nil
  chars n c hc := by
    have hdigit := Nat.isDigit_of_mem_toDigits (by decide) (by decide) hc
    simp [isNumeralChar, hdigit]
  read_render n := by
    have hdigits : (Nat.toDigits 10 n).all Char.isDigit = true := by
      rw [List.all_eq_true]
      intro c hc
      exact Nat.isDigit_of_mem_toDigits (by decide) (by decide) hc
    rw [if_pos hdigits, Nat.ofDigitChars_ten_toDigits]

/-- Signatures are the last bytes of what is signed, before the key. -/
def crypto : Crypto Nat where
  numerals := decimals
  ofInt := Int.toNat
  isZero n := n = 0
  lessThan v now :=
    match v with
    | some (.num n) => (n : Int) < now
    | _ => false
  bindText v :=
    match v with
    | some (.str s) => .ok (some s)
    | some .null => .ok none
    | _ => .error .other
  bindText_str _ := rfl
  hmac key data := (data.reverse ++ key ++ List.replicate 32 0).take 32
  sha256 bytes := bytes
  decodeInvalid _ := ['\ufffd']

theorem length_hmac (key data : List UInt8) : (crypto.hmac key data).length = 32 := by
  simp [crypto]
  omega

def key : SigningKey := ⟨"0123456789abcdef", by decide⟩

theorem hexByte_inj {a b : UInt8} (h : hexByte a = hexByte b) : a = b := by
  have hall : ∀ m n : Fin 16, Nat.digitChar m = Nat.digitChar n → m = n := by decide
  obtain ⟨hhigh, hlow⟩ := List.cons.inj h
  have hlow := (List.cons.inj hlow).1
  have ha := a.toNat_lt
  have hb := b.toNat_lt
  have h1 := hall ⟨a.toNat / 16, by omega⟩ ⟨b.toNat / 16, by omega⟩ hhigh
  have h2 := hall ⟨a.toNat % 16, by omega⟩ ⟨b.toNat % 16, by omega⟩ hlow
  simp only [Fin.mk.injEq] at h1 h2
  exact UInt8.toNat_inj.mp (by omega)

theorem flatMap_hexByte_inj {as bs : List UInt8} (h : as.flatMap hexByte = bs.flatMap hexByte) :
    as = bs := by
  induction as generalizing bs with
  | nil =>
    cases bs with
    | nil => rfl
    | cons b bs => cases h
  | cons a as ih =>
    cases bs with
    | nil => cases h
    | cons b bs =>
      rw [List.flatMap_cons, List.flatMap_cons] at h
      obtain ⟨hhead, htail⟩ := List.append_inj h rfl
      rw [hexByte_inj hhead, ih htail]

theorem encodeText_inj {as bs : List Char} (h : encodeText as = encodeText bs) : as = bs := by
  have hbytes : (String.ofList as).toUTF8 = (String.ofList bs).toUTF8 := by
    exact ByteArray.ext (Array.toList_inj.mp h)
  exact String.ofList_injective (String.toByteArray_inj.mp hbytes)

theorem sha256Hex_inj {as bs : List UInt8}
    (h : sha256Hex crypto (String.ofList (base64UrlEncode as)) =
      sha256Hex crypto (String.ofList (base64UrlEncode bs))) : as = bs := by
  have hbytes := String.ofList_injective h
  have hid : ∀ data, crypto.sha256 data = data := fun _ => rfl
  rw [hid, hid, String.toList_ofList, String.toList_ofList] at hbytes
  have htext := congrArg base64UrlDecode (encodeText_inj (flatMap_hexByte_inj hbytes))
  rw [base64UrlDecode_encode, base64UrlDecode_encode] at htext
  exact Option.some.inj htext

/-- A runtime whose random bytes are a one and so many zeros. -/
def env : Env Unit Nat where
  crypto := crypto
  sync := Sync.Sample.platform
  nowTs n k := n + k
  randomBytes n := 1 :: List.replicate n 0
  randomUUID n k := String.ofList ('1' :: List.replicate n '0' ++ '1' :: List.replicate k '0')
  toLowerCase value := value
  signingKey := some key.secret
  accessTtl := some 900
  refreshTtl := some 2592000
  magicLinkTtl := some 900
  apart m n h := by simpa using congrArg List.length (sha256Hex_inj h)

def turns (i n : Nat) : List (Turn (Request Unit)) := List.replicate n (.serve i .intact)

/-- A magic link is sent to the user. -/
def linked : List (Turn (Request Unit)) := .arrive (.start "u@example.com" none none) :: turns 0 1

/-- The user signs in with it. -/
def verified : List (Turn (Request Unit)) :=
  linked ++ .arrive (.verify (env.randomToken 0)) :: turns 1 4

end Seance.Auth.Sample
