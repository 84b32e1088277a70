import Mathlib.Data.List.DropRight

namespace Seance.Vault

/-- `char::is_whitespace`: the Unicode White_Space property. -/
def isWhitespace (c : Char) : Bool :=
  let n := c.toNat
  (9 ≤ n && n ≤ 13) || n == 0x20 || n == 0x85 || n == 0xA0 || n == 0x1680 ||
    (0x2000 ≤ n && n ≤ 0x200A) || n == 0x2028 || n == 0x2029 || n == 0x202F ||
    n == 0x205F || n == 0x3000

/-- `str::trim`. -/
def trim (s : String) : String :=
  String.ofList ((s.toList.dropWhile isWhitespace).reverse.dropWhile isWhitespace).reverse

/-- `str::trim().is_empty()`. -/
def isBlank (s : String) : Bool := trim s = ""

/-- `str::eq_ignore_ascii_case`. Lean's `Char.toLower` touches ASCII letters only. -/
def eqIgnoreAsciiCase (a b : String) : Bool :=
  a.toList.map Char.toLower = b.toList.map Char.toLower

/-- Nothing is left to trim. -/
theorem trim_trim (s : String) : trim (trim s) = trim s := by
  unfold trim
  rw [String.toList_ofList]
  congr 1
  have hfront : ((s.toList.dropWhile isWhitespace).reverse.dropWhile isWhitespace).reverse.dropWhile
      isWhitespace =
        ((s.toList.dropWhile isWhitespace).reverse.dropWhile isWhitespace).reverse := by
    generalize hmiddle : s.toList.dropWhile isWhitespace = middle
    have hprefix : (middle.reverse.dropWhile isWhitespace).reverse <+: middle := by
      have hsuffix := List.dropWhile_suffix (l := middle.reverse) isWhitespace
      rw [← List.reverse_prefix] at hsuffix
      rwa [List.reverse_reverse] at hsuffix
    cases hrest : (middle.reverse.dropWhile isWhitespace).reverse with
    | nil => rfl
    | cons first rest =>
      rw [hrest] at hprefix
      obtain ⟨after, hafter⟩ := hprefix
      have hfirst : isWhitespace first = false := by
        have hhead : middle.head? = some first := by rw [← hafter]; rfl
        rw [← hmiddle] at hhead
        have hnot := List.head?_dropWhile_not isWhitespace s.toList
        rw [hhead] at hnot
        simpa using hnot
      rw [List.dropWhile_cons_of_neg (by simp [hfirst])]
  rw [hfront, List.reverse_reverse, List.dropWhile_idempotent _ _]

/-- A text without blanks is not trimmed. -/
theorem trim_of_plain {s : String} (h : ∀ c ∈ s.toList, isWhitespace c = false) : trim s = s := by
  have hdrop : ∀ l : List Char, (∀ c ∈ l, isWhitespace c = false) → l.dropWhile isWhitespace = l := by
    intro l hl
    cases l with
    | nil => rfl
    | cons first rest =>
      rw [List.dropWhile_cons_of_neg (by simp [hl first List.mem_cons_self])]
  unfold trim
  rw [hdrop _ h, hdrop _ (fun c hc => h c (List.mem_reverse.mp hc)), List.reverse_reverse,
    String.ofList_toList]

example : trim " 127.0.0.1\t" = "127.0.0.1" := by decide

end Seance.Vault
