import Mathlib.Data.List.Basic

namespace Seance.Lib

/-- A JSON value. What a number is, is left open. -/
inductive Json (N : Type) where
  | null
  | bool (b : Bool)
  | num (n : N)
  | str (s : String)
  | arr (items : List (Json N))
  | obj (members : List (String × Json N))

def isNumeralChar (c : Char) : Bool :=
  c.isDigit || c = '-' || c = '+' || c = '.' || c = 'e' || c = 'E'

/-- Numbers with their numerals: what is printed for a number is read as that number. -/
structure Numerals (N : Type) where
  render : N → List Char
  read : List Char → Option N
  nonempty : ∀ n, render n ≠ []
  chars : ∀ n, ∀ c ∈ render n, isNumeralChar c = true
  read_render : ∀ n, read (render n) = some n

namespace Json

variable {N : Type}

section Strings

/-- The characters that are written as a backslash and a letter. -/
def escapes : List (Char × Char) :=
  [('"', '"'), ('\\', '\\'), ('b', '\x08'), ('f', '\x0c'), ('n', '\n'), ('r', '\r'), ('t', '\t')]

def escapeLetter (c : Char) : Option Char := (escapes.find? (fun p => p.2 = c)).map Prod.fst

def escapeChar (c : Char) : List Char :=
  match escapeLetter c with
  | some e => ['\\', e]
  | none =>
    if c.toNat < 32 then
      ['\\', 'u', '0', '0', Nat.digitChar (c.toNat / 16), Nat.digitChar (c.toNat % 16)]
    else [c]

/-- The characters of a string and the quote after them. -/
def quoteRest (cs : List Char) : List Char := cs.flatMap escapeChar ++ ['"']

/-- A reader takes an escaped slash, too. -/
def unescapeLetter (e : Char) : Option Char :=
  ((('/', '/') :: escapes).find? (fun p => p.1 = e)).map Prod.snd

def hexValue (c : Char) : Option Nat :=
  if '0' ≤ c ∧ c ≤ '9' then some (c.toNat - '0'.toNat)
  else if 'a' ≤ c ∧ c ≤ 'f' then some (c.toNat - 'a'.toNat + 10)
  else if 'A' ≤ c ∧ c ≤ 'F' then some (c.toNat - 'A'.toNat + 10)
  else none

/-- Four hexadecimal digits. -/
def codeUnit (a b c d : Char) : Option Nat := do
  let a ← hexValue a
  let b ← hexValue b
  let c ← hexValue c
  let d ← hexValue d
  pure (((a * 16 + b) * 16 + c) * 16 + d)

/-- A code unit that is no character of its own stands for the replacement character. -/
def ofCodeUnit (n : Nat) : Char := if n.isValidChar then Char.ofNat n else '\ufffd'

def isHighSurrogate (n : Nat) : Bool := 0xd800 ≤ n && n < 0xdc00

def isLowSurrogate (n : Nat) : Bool := 0xdc00 ≤ n && n < 0xe000

def ofSurrogates (high low : Nat) : Char :=
  Char.ofNat (0x10000 + (high - 0xd800) * 0x400 + (low - 0xdc00))

/-- The escape after a backslash and what follows it. -/
def unescape : List Char → Option (Char × List Char)
  | 'u' :: a :: b :: c :: d :: '\\' :: 'u' :: a' :: b' :: c' :: d' :: cs => do
    let unit ← codeUnit a b c d
    match codeUnit a' b' c' d' with
    | some next =>
      if isHighSurrogate unit && isLowSurrogate next then pure (ofSurrogates unit next, cs)
      else pure (ofCodeUnit unit, '\\' :: 'u' :: a' :: b' :: c' :: d' :: cs)
    | none => pure (ofCodeUnit unit, '\\' :: 'u' :: a' :: b' :: c' :: d' :: cs)
  | 'u' :: a :: b :: c :: d :: cs => do
    let unit ← codeUnit a b c d
    pure (ofCodeUnit unit, cs)
  | e :: cs => (unescapeLetter e).map (fun c => (c, cs))
  | [] => none

/-- The rest of a string after its opening quote, with so many characters at most. -/
def parseString : Nat → List Char → Option (List Char × List Char)
  | 0, _ => none
  | _, [] => none
  | f + 1, c :: cs =>
    if c = '"' then some ([], cs)
    else if c = '\\' then do
      let (e, rest) ← unescape cs
      let (s, rest) ← parseString f rest
      pure (e :: s, rest)
    else if c.toNat < 32 then none
    else do
      let (s, rest) ← parseString f cs
      pure (c :: s, rest)

theorem hexValue_digitChar {n : Nat} (h : n < 16) : hexValue (Nat.digitChar n) = some n := by
  have hall : ∀ m : Fin 16, hexValue (Nat.digitChar m) = some (m : Nat) := by decide
  exact hall ⟨n, h⟩

theorem unescape_letter {c e : Char} (h : escapeLetter c = some e) (rest : List Char) :
    unescape (e :: rest) = some (c, rest) := by
  obtain ⟨p, hp, rfl⟩ := Option.map_eq_some_iff.mp h
  have hall : ∀ q ∈ escapes, q.1 ≠ 'u' ∧ unescapeLetter q.1 = some q.2 := by decide
  obtain ⟨hu, hletter⟩ := hall p (List.mem_of_find?_eq_some hp)
  have hc : p.2 = c := by simpa using List.find?_some hp
  unfold unescape
  split
  · rename_i he
    exact absurd (List.cons.inj he).1 hu
  · rename_i he
    exact absurd (List.cons.inj he).1 hu
  · rename_i he
    cases he
    rw [hletter, hc, Option.map_some]
  · rename_i he
    cases he

theorem unescape_control {c : Char} (h : c.toNat < 32) (rest : List Char) :
    unescape ('u' :: '0' :: '0' :: Nat.digitChar (c.toNat / 16) :: Nat.digitChar (c.toNat % 16) ::
      rest) = some (c, rest) := by
  have hunit : codeUnit '0' '0' (Nat.digitChar (c.toNat / 16)) (Nat.digitChar (c.toNat % 16)) =
      some c.toNat := by
    have hzero : hexValue '0' = some 0 := by decide
    have hsum : ((0 * 16 + 0) * 16 + c.toNat / 16) * 16 + c.toNat % 16 = c.toNat := by omega
    simp only [codeUnit, hzero, hexValue_digitChar (by omega : c.toNat / 16 < 16),
      hexValue_digitChar (by omega : c.toNat % 16 < 16), Option.bind_eq_bind, Option.bind_some,
      Option.pure_def, hsum]
  have hchar : ofCodeUnit c.toNat = c := by
    have hvalid : c.toNat.isValidChar := c.valid
    rw [ofCodeUnit, if_pos hvalid, Char.ofNat_toNat]
  have hhigh : isHighSurrogate c.toNat = false := by
    unfold isHighSurrogate
    simp only [Bool.and_eq_false_iff, decide_eq_false_iff_not]
    omega
  unfold unescape
  split
  · rename_i he
    cases he
    rw [hunit]
    simp only [Option.bind_eq_bind, Option.bind_some, hhigh, Bool.false_and, Bool.false_eq_true,
      ↓reduceIte, hchar]
    split <;> rfl
  · rename_i he
    cases he
    simp only [hunit, Option.bind_eq_bind, Option.bind_some, hchar, Option.pure_def]
  · rename_i hno he
    cases he
    exact absurd rfl (fun h => hno _ _ _ _ _ h rfl)
  · rename_i he
    cases he

/-- What is quoted is read back, whatever follows. -/
theorem parseString_quoteRest (cs rest : List Char) {f : Nat} (h : cs.length < f) :
    parseString f (quoteRest cs ++ rest) = some (cs, rest) := by
  induction cs generalizing f with
  | nil =>
    obtain ⟨f, rfl⟩ := Nat.exists_eq_add_of_lt h
    rfl
  | cons c cs ih =>
    obtain ⟨f, rfl⟩ : ∃ g, f = g + 1 := ⟨f - 1, by simp only [List.length_cons] at h; omega⟩
    have htail := ih (f := f) (by simpa using h)
    have hquote : quoteRest (c :: cs) ++ rest = escapeChar c ++ (quoteRest cs ++ rest) := by
      simp [quoteRest]
    rw [hquote, escapeChar]
    split
    · rename_i e he
      have hread : parseString (f + 1) ('\\' :: e :: (quoteRest cs ++ rest)) =
          (unescape (e :: (quoteRest cs ++ rest))).bind
            (fun p => (parseString f p.2).bind (fun q => some (p.1 :: q.1, q.2))) := rfl
      refine hread.trans ?_
      rw [unescape_letter he, Option.bind_some, htail, Option.bind_some]
    · rename_i hnone
      split
      · rename_i hctl
        have hread : parseString (f + 1) ('\\' :: 'u' :: '0' :: '0' ::
            Nat.digitChar (c.toNat / 16) :: Nat.digitChar (c.toNat % 16) ::
              (quoteRest cs ++ rest)) =
            (unescape ('u' :: '0' :: '0' :: Nat.digitChar (c.toNat / 16) ::
              Nat.digitChar (c.toNat % 16) :: (quoteRest cs ++ rest))).bind
              (fun p => (parseString f p.2).bind (fun q => some (p.1 :: q.1, q.2))) := rfl
        refine hread.trans ?_
        rw [unescape_control hctl, Option.bind_some, htail, Option.bind_some]
      · rename_i hctl
        have hquote : c ≠ '"' := by
          rintro rfl
          cases hnone
        have hslash : c ≠ '\\' := by
          rintro rfl
          cases hnone
        have hread : parseString (f + 1) (c :: (quoteRest cs ++ rest)) =
            (parseString f (quoteRest cs ++ rest)).bind (fun q => some (c :: q.1, q.2)) := by
          simp only [parseString, hquote, hslash, hctl, ↓reduceIte]
          rfl
        refine hread.trans ?_
        rw [htail, Option.bind_some]

end Strings

section Values

variable (num : Numerals N)

mutual

/-- The text of a value, without any space. -/
def print : Json N → List Char
  | null => ['n', 'u', 'l', 'l']
  | bool true => ['t', 'r', 'u', 'e']
  | bool false => ['f', 'a', 'l', 's', 'e']
  | .num n => num.render n
  | str s => '"' :: quoteRest s.toList
  | arr [] => ['[', ']']
  | arr (v :: vs) => '[' :: (print v ++ printItems vs)
  | obj [] => ['{', '}']
  | obj ((k, v) :: ms) => '{' :: '"' :: (quoteRest k.toList ++ ':' :: (print v ++ printMembers ms))

/-- The items after the first one, with the closing bracket. -/
def printItems : List (Json N) → List Char
  | [] => [']']
  | v :: vs => ',' :: (print v ++ printItems vs)

def printMembers : List (String × Json N) → List Char
  | [] => ['}']
  | (k, v) :: ms => ',' :: '"' :: (quoteRest k.toList ++ ':' :: (print v ++ printMembers ms))

end

def isSpace (c : Char) : Bool := c = ' ' || c = '\t' || c = '\n' || c = '\r'

def skipSpace (cs : List Char) : List Char := cs.dropWhile isSpace

/-- The rest of the text after a mark and the space before it. -/
def token (mark : Char) (cs : List Char) : Option (List Char) :=
  match skipSpace cs with
  | [] => none
  | c :: cs => if c = mark then some cs else none

/-- The rest of the text after a word. -/
def skipWord : List Char → List Char → Option (List Char)
  | [], cs => some cs
  | _ :: _, [] => none
  | w :: ws, c :: cs => if c = w then skipWord ws cs else none

/-- A member replaces the one of the same name. -/
def setMember (ms : List (String × Json N)) (m : String × Json N) : List (String × Json N) :=
  if ms.any (fun m' => m'.1 = m.1) then ms.map (fun m' => if m'.1 = m.1 then m else m')
  else ms ++ [m]

mutual

/-- A value at the start of the text, with so many steps at most. -/
def parseValue : Nat → List Char → Option (Json N × List Char)
  | 0, _ => none
  | f + 1, cs =>
    match skipSpace cs with
    | [] => none
    | c :: cs =>
      if c = '"' then do
        let (s, cs) ← parseString (cs.length + 1) cs
        pure (str (String.ofList s), cs)
      else if c = '[' then
        match token ']' cs with
        | some cs => some (arr [], cs)
        | none => do
          let (vs, cs) ← parseItems f cs
          pure (arr vs, cs)
      else if c = '{' then
        match token '}' cs with
        | some cs => some (obj [], cs)
        | none => do
          let (ms, cs) ← parseMembers f cs
          pure (obj (ms.foldl setMember []), cs)
      else if isNumeralChar c then do
        let n ← num.read ((c :: cs).takeWhile isNumeralChar)
        pure (.num n, (c :: cs).dropWhile isNumeralChar)
      else if c = 'n' then (skipWord ['u', 'l', 'l'] cs).map (fun cs => (null, cs))
      else if c = 't' then (skipWord ['r', 'u', 'e'] cs).map (fun cs => (bool true, cs))
      else if c = 'f' then (skipWord ['a', 'l', 's', 'e'] cs).map (fun cs => (bool false, cs))
      else none

/-- One item or more, up to the closing bracket. -/
def parseItems : Nat → List Char → Option (List (Json N) × List Char)
  | 0, _ => none
  | f + 1, cs => do
    let (v, cs) ← parseValue f cs
    match token ',' cs with
    | some cs => do
      let (vs, cs) ← parseItems f cs
      pure (v :: vs, cs)
    | none => do
      let cs ← token ']' cs
      pure ([v], cs)

def parseMembers : Nat → List Char → Option (List (String × Json N) × List Char)
  | 0, _ => none
  | f + 1, cs => do
    let cs ← token '"' cs
    let (k, cs) ← parseString (cs.length + 1) cs
    let cs ← token ':' cs
    let (v, cs) ← parseValue f cs
    match token ',' cs with
    | some cs => do
      let (ms, cs) ← parseMembers f cs
      pure ((String.ofList k, v) :: ms, cs)
    | none => do
      let cs ← token '}' cs
      pure ([(String.ofList k, v)], cs)

end

/-- `JSON.stringify` of a value. -/
def stringify (v : Json N) : String := String.ofList (print num v)

/-- `JSON.parse`, or none where it throws. A value takes two steps for each character at most. -/
def parse (text : String) : Option (Json N) :=
  match parseValue num (2 * text.toList.length + 1) text.toList with
  | some (v, rest) => if skipSpace rest = [] then some v else none
  | none => none

/-- No object in the value has two members of one name. -/
def Distinct : Json N → Prop
  | arr vs => DistinctItems vs
  | obj ms => (ms.map Prod.fst).Nodup ∧ DistinctMembers ms
  | _ => True
where
  DistinctItems : List (Json N) → Prop
    | [] => True
    | v :: vs => Distinct v ∧ DistinctItems vs
  DistinctMembers : List (String × Json N) → Prop
    | [] => True
    | (_, v) :: ms => Distinct v ∧ DistinctMembers ms

/-- The text goes on with something that is no part of a numeral. -/
def Follows (rest : List Char) : Prop := ∀ c ∈ rest.head?, isNumeralChar c = false

theorem follows_cons {c : Char} {cs : List Char} (h : isNumeralChar c = false) :
    Follows (c :: cs) := by
  rintro d ⟨⟩
  exact h

variable {num} {f : Nat} {rest : List Char}

theorem skipSpace_cons {c : Char} {cs : List Char} (h : isSpace c = false) :
    skipSpace (c :: cs) = c :: cs := by
  rw [skipSpace, List.dropWhile_cons_of_neg (by simp [h])]

theorem token_self {c : Char} (cs : List Char) (h : isSpace c = false) :
    token c (c :: cs) = some cs := by
  rw [token, skipSpace_cons h]
  exact if_pos rfl

theorem token_of_ne {c mark : Char} (cs : List Char) (h : isSpace c = false) (hne : c ≠ mark) :
    token mark (c :: cs) = none := by
  rw [token, skipSpace_cons h]
  exact if_neg hne

theorem parseString_quoteRest_self (cs rest : List Char) :
    parseString ((quoteRest cs ++ rest).length + 1) (quoteRest cs ++ rest) = some (cs, rest) := by
  refine parseString_quoteRest cs rest ?_
  have hle : cs.length ≤ (cs.flatMap escapeChar).length := by
    induction cs with
    | nil => exact Nat.le_refl _
    | cons c cs ih =>
      have hone : 1 ≤ (escapeChar c).length := by
        unfold escapeChar
        split
        · exact Nat.le_succ_of_le (Nat.le_refl 1)
        · split <;> simp
      rw [List.flatMap_cons, List.length_append, List.length_cons]
      omega
  simp only [quoteRest, List.length_append]
  omega

theorem foldl_setMember {ms done : List (String × Json N)}
    (h : ((done ++ ms).map Prod.fst).Nodup) : ms.foldl setMember done = done ++ ms := by
  induction ms generalizing done with
  | nil => simp
  | cons m ms ih =>
    have hnew : setMember done m = done ++ [m] := by
      rw [setMember, if_neg]
      rw [List.any_eq_true]
      rintro ⟨m', hm', he⟩
      rw [List.map_append, List.map_cons, List.nodup_append] at h
      exact h.2.2 m'.1 (List.mem_map_of_mem hm') m.1 List.mem_cons_self (of_decide_eq_true he)
    rw [List.foldl_cons, hnew, ih (by simpa using h), List.append_assoc, List.singleton_append]

variable (num) in
/-- No value starts with a space, a comma or a closing bracket. -/
theorem print_head (v : Json N) : ∃ c cs, print num v = c :: cs ∧ isSpace c = false ∧ c ≠ ']' := by
  cases v with
  | null => exact ⟨'n', _, rfl, by decide, by decide⟩
  | bool b => cases b <;> exact ⟨_, _, rfl, by decide, by decide⟩
  | num n =>
    cases hn : num.render n with
    | nil => exact absurd hn (num.nonempty n)
    | cons c cs =>
      have hc := num.chars n c (hn ▸ List.mem_cons_self)
      refine ⟨c, cs, by rw [print, hn], ?_, ?_⟩
      · by_contra hspace
        simp only [isSpace, Bool.or_eq_false_iff, decide_eq_false_iff_not, not_and_or,
          not_not] at hspace
        rcases hspace with ((rfl | rfl) | rfl) | rfl <;> cases hc
      · rintro rfl
        cases hc
  | str s => exact ⟨'"', _, rfl, by decide, by decide⟩
  | arr vs => cases vs <;> exact ⟨'[', _, rfl, by decide, by decide⟩
  | obj ms => cases ms <;> exact ⟨'{', _, rfl, by decide, by decide⟩

theorem takeWhile_numeral {cs : List Char} (hcs : ∀ c ∈ cs, isNumeralChar c = true)
    (h : Follows rest) : (cs ++ rest).takeWhile isNumeralChar = cs ∧
      (cs ++ rest).dropWhile isNumeralChar = rest := by
  induction cs with
  | nil =>
    cases rest with
    | nil => exact ⟨rfl, rfl⟩
    | cons c rest =>
      have hc : ¬ isNumeralChar c = true := by simp [h c rfl]
      exact ⟨List.takeWhile_cons_of_neg hc, List.dropWhile_cons_of_neg hc⟩
  | cons c cs ih =>
    obtain ⟨htake, hdrop⟩ := ih (fun d hd => hcs d (List.mem_cons_of_mem _ hd))
    have hc := hcs c List.mem_cons_self
    rw [List.cons_append, List.takeWhile_cons_of_pos hc, List.dropWhile_cons_of_pos hc, htake,
      hdrop]
    exact ⟨rfl, rfl⟩

theorem parseValue_num (n : N) (h : Follows rest) :
    parseValue num (f + 1) (num.render n ++ rest) = some (.num n, rest) := by
  obtain ⟨htake, hdrop⟩ := takeWhile_numeral (num.chars n) h
  obtain ⟨c, cs, hprint, hspace, _⟩ := print_head num (.num n)
  have hrender : num.render n = c :: cs := hprint
  have hc := num.chars n c (hrender ▸ List.mem_cons_self)
  rw [hrender, List.cons_append] at htake hdrop ⊢
  have hne : ∀ d, isNumeralChar d = false → c ≠ d := by
    rintro d hd rfl
    rw [hc] at hd
    cases hd
  rw [parseValue, skipSpace_cons hspace]
  simp only [hne '"' rfl, hne '[' rfl, hne '{' rfl, ↓reduceIte, hc]
  rw [htake, hdrop, ← hrender, num.read_render]
  rfl

mutual

/-- What is printed is read back, whatever follows. -/
theorem parseValue_print (v : Json N) (hv : v.Distinct) (rest : List Char) (hrest : Follows rest)
    (f : Nat) (hf : 2 * (print num v).length ≤ f) :
    parseValue num f (print num v ++ rest) = some (v, rest) := by
  obtain ⟨f, rfl⟩ : ∃ g, f = g + 1 := by
    obtain ⟨c, cs, hprint, _⟩ := print_head num v
    rw [hprint, List.length_cons] at hf
    exact ⟨f - 1, by omega⟩
  match v with
  | null => rfl
  | bool true => rfl
  | bool false => rfl
  | .num n => exact parseValue_num n hrest
  | str s =>
    rw [print, List.cons_append, parseValue, skipSpace_cons rfl]
    simp only [↓reduceIte, parseString_quoteRest_self, Option.bind_eq_bind, Option.bind_some,
      String.ofList_toList, Option.pure_def]
  | arr [] => rfl
  | arr (w :: vs) =>
    have hitems := parseItems_print w vs hv.1 hv.2 rest f (by
      rw [print, List.length_cons, List.length_append] at hf
      omega)
    obtain ⟨c, cs, hprint, hspace, hclose⟩ := print_head num w
    rw [print, List.cons_append, List.append_assoc, parseValue, skipSpace_cons rfl]
    rw [hprint, List.cons_append] at hitems ⊢
    simp only [Char.reduceEq, ↓reduceIte, token_of_ne _ hspace hclose, hitems,
      Option.bind_eq_bind, Option.bind_some, Option.pure_def]
  | obj [] => rfl
  | obj ((k, w) :: ms) =>
    have hmembers := parseMembers_print k w ms hv.2.1 hv.2.2 rest f (by
      simp only [print, List.length_cons, List.length_append] at hf
      omega)
    rw [print, List.cons_append, List.cons_append, parseValue, skipSpace_cons rfl]
    simp only [List.append_assoc, List.cons_append] at hmembers ⊢
    simp only [Char.reduceEq, ↓reduceIte, hmembers,
      token_of_ne _ (rfl : isSpace '"' = false) (by decide : '"' ≠ '}'),
      Option.bind_eq_bind, Option.bind_some, Option.pure_def]
    rw [foldl_setMember (by simpa using hv.1), List.nil_append]
termination_by f

theorem parseItems_print (v : Json N) (vs : List (Json N)) (hv : v.Distinct)
    (hvs : Distinct.DistinctItems vs) (rest : List Char) (f : Nat)
    (hf : 2 * ((print num v).length + (printItems num vs).length) ≤ f) :
    parseItems num f (print num v ++ (printItems num vs ++ rest)) = some (v :: vs, rest) := by
  obtain ⟨f, rfl⟩ : ∃ g, f = g + 1 := by
    obtain ⟨c, cs, hprint, _⟩ := print_head num v
    rw [hprint, List.length_cons] at hf
    exact ⟨f - 1, by omega⟩
  match vs with
  | [] =>
    have hlen : (printItems num []).length = 1 := rfl
    have hvalue := parseValue_print v hv (']' :: rest) (follows_cons rfl) f (by omega)
    simp only [parseItems, printItems, List.cons_append, List.nil_append, hvalue,
      token_self rest (rfl : isSpace ']' = false),
      token_of_ne rest (rfl : isSpace ']' = false) (by decide : ']' ≠ ','),
      Option.bind_eq_bind, Option.bind_some, Option.pure_def]
  | w :: ws =>
    have hlen : (printItems num (w :: ws)).length =
        (print num w).length + (printItems num ws).length + 1 := by
      simp only [printItems, List.length_cons, List.length_append]
    have hvalue := parseValue_print v hv (',' :: (print num w ++ (printItems num ws ++ rest)))
      (follows_cons rfl) f (by omega)
    have hitems := parseItems_print w ws hvs.1 hvs.2 rest f (by omega)
    simp only [parseItems, printItems, List.cons_append, List.append_assoc, hvalue, hitems,
      token_self _ (rfl : isSpace ',' = false), Option.bind_eq_bind, Option.bind_some,
      Option.pure_def]
termination_by f

theorem parseMembers_print (k : String) (v : Json N) (ms : List (String × Json N))
    (hv : v.Distinct) (hms : Distinct.DistinctMembers ms) (rest : List Char) (f : Nat)
    (hf : 2 * ((print num v).length + (printMembers num ms).length) ≤ f) :
    parseMembers num f ('"' :: (quoteRest k.toList ++ ':' ::
      (print num v ++ (printMembers num ms ++ rest)))) = some ((k, v) :: ms, rest) := by
  obtain ⟨f, rfl⟩ : ∃ g, f = g + 1 := by
    obtain ⟨c, cs, hprint, _⟩ := print_head num v
    rw [hprint, List.length_cons] at hf
    exact ⟨f - 1, by omega⟩
  match ms with
  | [] =>
    have hlen : (printMembers num []).length = 1 := rfl
    have hvalue := parseValue_print v hv ('}' :: rest) (follows_cons rfl) f (by omega)
    simp only [parseMembers, printMembers, List.cons_append, List.nil_append, hvalue,
      parseString_quoteRest_self, token_self _ (rfl : isSpace '"' = false),
      token_self _ (rfl : isSpace ':' = false), token_self rest (rfl : isSpace '}' = false),
      token_of_ne rest (rfl : isSpace '}' = false) (by decide : '}' ≠ ','),
      Option.bind_eq_bind, Option.bind_some, Option.pure_def, String.ofList_toList]
  | (l, w) :: ms =>
    have hlen : (print num w).length + (printMembers num ms).length + 1 ≤
        (printMembers num ((l, w) :: ms)).length := by
      simp only [printMembers, List.length_cons, List.length_append]
      omega
    have hvalue := parseValue_print v hv (',' :: '"' :: (quoteRest l.toList ++ ':' ::
      (print num w ++ (printMembers num ms ++ rest)))) (follows_cons rfl) f (by omega)
    have hmembers := parseMembers_print l w ms hms.1 hms.2 rest f (by omega)
    simp only [parseMembers, printMembers, List.cons_append, List.append_assoc, hvalue, hmembers,
      parseString_quoteRest_self, token_self _ (rfl : isSpace '"' = false),
      token_self _ (rfl : isSpace ':' = false), token_self _ (rfl : isSpace ',' = false),
      Option.bind_eq_bind, Option.bind_some, Option.pure_def, String.ofList_toList]
termination_by f

end

/-- `JSON.parse` gives back what `JSON.stringify` was given. -/
theorem parse_stringify (v : Json N) (hv : v.Distinct) : parse num (stringify num v) = some v := by
  have hvalue := parseValue_print v hv [] (by rintro c ⟨⟩) (2 * (print num v).length + 1)
    (Nat.le_succ _)
  rw [List.append_nil] at hvalue
  simp only [parse, stringify, String.toList_ofList, hvalue, skipSpace, List.dropWhile_nil,
    ↓reduceIte]

end Values

end Json

end Seance.Lib
