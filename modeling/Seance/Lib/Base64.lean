import Mathlib.Data.List.DropRight

namespace Seance.Lib.Base64

def alphabet : List Char :=
  ['A', 'B', 'C', 'D', 'E', 'F', 'G', 'H', 'I', 'J', 'K', 'L', 'M', 'N', 'O', 'P',
    'Q', 'R', 'S', 'T', 'U', 'V', 'W', 'X', 'Y', 'Z', 'a', 'b', 'c', 'd', 'e', 'f',
    'g', 'h', 'i', 'j', 'k', 'l', 'm', 'n', 'o', 'p', 'q', 'r', 's', 't', 'u', 'v',
    'w', 'x', 'y', 'z', '0', '1', '2', '3', '4', '5', '6', '7', '8', '9', '+', '/']

def digit (n : Nat) : Char := alphabet.getD n 'A'

def digitValue (c : Char) : Option Nat := alphabet.findIdx? (fun d => d = c)

/-- Six bits at a time, the last ones filled up with zeros. -/
def digits : List UInt8 → List Nat
  | a :: b :: c :: rest =>
    a.toNat / 4 :: (a.toNat % 4 * 16 + b.toNat / 16) :: (b.toNat % 16 * 4 + c.toNat / 64) ::
      c.toNat % 64 :: digits rest
  | [a, b] => [a.toNat / 4, a.toNat % 4 * 16 + b.toNat / 16, b.toNat % 16 * 4]
  | [a] => [a.toNat / 4, a.toNat % 4 * 16]
  | [] => []

/-- What fills up the last group of four. -/
def padding : List UInt8 → List Char
  | _ :: _ :: _ :: rest => padding rest
  | [_, _] => ['=']
  | [_] => ['=', '=']
  | [] => []

/-- `btoa`, on the bytes of its binary string. -/
def btoa (bytes : List UInt8) : List Char := (digits bytes).map digit ++ padding bytes

/-- Eight bits at a time, what is left of the last digit dropped. -/
def ofDigits : List Nat → List UInt8
  | a :: b :: c :: d :: rest =>
    UInt8.ofNat (a * 4 + b / 16) :: UInt8.ofNat (b % 16 * 16 + c / 4) ::
      UInt8.ofNat (c % 4 * 64 + d) :: ofDigits rest
  | [a, b, c] => [UInt8.ofNat (a * 4 + b / 16), UInt8.ofNat (b % 16 * 16 + c / 4)]
  | [a, b] => [UInt8.ofNat (a * 4 + b / 16)]
  | _ => []

def isAsciiSpace (c : Char) : Bool :=
  c = '\t' || c = '\n' || c = '\x0c' || c = '\r' || c = ' '

/-- One or two equals signs at the end of whole groups of four. -/
def dropPadding (cs : List Char) : List Char :=
  if cs.length % 4 = 0 then
    if ['=', '='] <:+ cs then cs.take (cs.length - 2)
    else if ['='] <:+ cs then cs.take (cs.length - 1)
    else cs
  else cs

/-- `atob`, or none where it throws. -/
def atob (text : List Char) : Option (List UInt8) :=
  let cs := dropPadding (text.filter (fun c => !isAsciiSpace c))
  if cs.length % 4 = 1 then none else (cs.mapM digitValue).map ofDigits

theorem digitValue_digit {n : Nat} (h : n < 64) : digitValue (digit n) = some n := by
  have hall : ∀ m : Fin 64, digitValue (digit m) = some (m : Nat) := by decide +kernel
  exact hall ⟨n, h⟩

theorem digit_plain {n : Nat} (h : n < 64) :
    isAsciiSpace (digit n) = false ∧ digit n ≠ '=' := by
  have hall : ∀ m : Fin 64, isAsciiSpace (digit m) = false ∧ digit m ≠ '=' := by decide +kernel
  exact hall ⟨n, h⟩

theorem length_le_digits (bytes : List UInt8) : bytes.length ≤ (digits bytes).length := by
  fun_induction digits bytes with
  | case1 a b c rest ih =>
    simp only [List.length_cons]
    omega
  | case2 => simp
  | case3 => simp
  | case4 => exact Nat.le_refl _

theorem digits_lt (bytes : List UInt8) : ∀ n ∈ digits bytes, n < 64 := by
  fun_induction digits bytes with
  | case1 a b c rest ih =>
    have ha := a.toNat_lt
    have hb := b.toNat_lt
    have hc := c.toNat_lt
    intro n hn
    simp only [List.mem_cons] at hn
    rcases hn with rfl | rfl | rfl | rfl | hn
    · omega
    · omega
    · omega
    · omega
    · exact ih n hn
  | case2 a b =>
    have ha := a.toNat_lt
    have hb := b.toNat_lt
    intro n hn
    simp only [List.mem_cons, List.not_mem_nil, or_false] at hn
    rcases hn with rfl | rfl | rfl <;> omega
  | case3 a =>
    have ha := a.toNat_lt
    intro n hn
    simp only [List.mem_cons, List.not_mem_nil, or_false] at hn
    rcases hn with rfl | rfl <;> omega
  | case4 => simp

theorem ofDigits_digits (bytes : List UInt8) : ofDigits (digits bytes) = bytes := by
  have hnat : ∀ (a : UInt8) (n : Nat), n = a.toNat → UInt8.ofNat n = a := by
    rintro a _ rfl
    exact UInt8.ofNat_toNat
  fun_induction digits bytes with
  | case1 a b c rest ih =>
    have ha := a.toNat_lt
    have hb := b.toNat_lt
    have hc := c.toNat_lt
    rw [ofDigits, ih, hnat a _ (by omega), hnat b _ (by omega), hnat c _ (by omega)]
  | case2 a b =>
    have ha := a.toNat_lt
    have hb := b.toNat_lt
    rw [ofDigits, hnat a _ (by omega), hnat b _ (by omega)]
  | case3 a =>
    have ha := a.toNat_lt
    rw [ofDigits, hnat a _ (by omega)]
  | case4 => rfl

/-- The padding completes the last group, and a group is never one digit long. -/
theorem padding_cases (bytes : List UInt8) :
    (padding bytes = [] ∧ (digits bytes).length % 4 = 0) ∨
    (padding bytes = ['='] ∧ (digits bytes).length % 4 = 3) ∨
    (padding bytes = ['=', '='] ∧ (digits bytes).length % 4 = 2) := by
  fun_induction digits bytes with
  | case1 a b c rest ih =>
    have hlen : ∀ n : Nat, (n + 1 + 1 + 1 + 1) % 4 = n % 4 := by omega
    simpa only [padding, List.length_cons, hlen] using ih
  | case2 a b => simp [padding]
  | case3 a => simp [padding]
  | case4 => simp [padding]

theorem dropPadding_btoa (bytes : List UInt8) :
    dropPadding (btoa bytes) = (digits bytes).map digit := by
  have hplain : ∀ c ∈ (digits bytes).map digit, c ≠ '=' := by
    intro c hc
    obtain ⟨n, hn, rfl⟩ := List.mem_map.mp hc
    exact (digit_plain (digits_lt bytes n hn)).2
  have hlast : ¬ ['='] <:+ (digits bytes).map digit :=
    fun h => hplain '=' (h.subset (List.mem_singleton.mpr rfl)) rfl
  unfold dropPadding btoa
  rcases padding_cases bytes with ⟨hpad, hlen⟩ | ⟨hpad, hlen⟩ | ⟨hpad, hlen⟩
  · have htwo : ¬ ['=', '='] <:+ (digits bytes).map digit :=
      fun h => hplain '=' (h.subset (by simp)) rfl
    simp [hpad, hlen, hlast, htwo]
  · have htwo : ¬ ['=', '='] <:+ (digits bytes).map digit ++ ['='] := by
      rintro ⟨cs, h⟩
      have hcons : cs ++ ['='] = (digits bytes).map digit := by
        have heq : (cs ++ ['=']) ++ ['='] = (digits bytes).map digit ++ ['='] := by simpa using h
        exact List.append_cancel_right heq
      exact hlast ⟨cs, hcons⟩
    have hfull : ((digits bytes).length + 1) % 4 = 0 := by omega
    simp [hpad, hfull, htwo]
  · have hfull : ((digits bytes).length + 2) % 4 = 0 := by omega
    simp [hpad, hfull]

theorem mapM_digitValue {ns : List Nat} (h : ∀ n ∈ ns, n < 64) :
    (ns.map digit).mapM digitValue = some ns := by
  induction ns with
  | nil => rfl
  | cons n ns ih =>
    rw [List.map_cons, List.mapM_cons, digitValue_digit (h n List.mem_cons_self),
      ih (fun m hm => h m (List.mem_cons_of_mem _ hm))]
    rfl

theorem atob_btoa (bytes : List UInt8) : atob (btoa bytes) = some bytes := by
  have hspace : (btoa bytes).filter (fun c => !isAsciiSpace c) = btoa bytes := by
    rw [List.filter_eq_self]
    intro c hc
    rcases List.mem_append.mp hc with hc | hc
    · obtain ⟨n, hn, rfl⟩ := List.mem_map.mp hc
      rw [(digit_plain (digits_lt bytes n hn)).1]
      rfl
    · have heq : c = '=' := by
        rcases padding_cases bytes with ⟨hpad, _⟩ | ⟨hpad, _⟩ | ⟨hpad, _⟩ <;> simp_all
      subst heq
      rfl
  have hone : ((digits bytes).map digit).length % 4 ≠ 1 := by
    rw [List.length_map]
    rcases padding_cases bytes with ⟨_, h⟩ | ⟨_, h⟩ | ⟨_, h⟩ <;> omega
  simp only [atob, hspace, dropPadding_btoa, hone, ↓reduceIte, mapM_digitValue (digits_lt bytes),
    Option.map_some, ofDigits_digits]

end Seance.Lib.Base64
