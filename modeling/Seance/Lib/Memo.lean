import Mathlib.Data.List.Basic

namespace Seance.Lib

/-- A bounded store of answers, which may forget any of them whenever it is used. -/
structure Cache (K V C : Type) where
  empty : C
  get : K → C → Option V × C
  put : K → V → C → C
  peek : C → K → Option V
  peek_empty : ∀ key, peek empty key = none
  get_peek : ∀ key c, (get key c).1 = peek c key
  peek_get : ∀ key c k v, peek (get key c).2 k = some v → peek c k = some v
  peek_put : ∀ key value c k v,
    peek (put key value c) k = some v → (k = key ∧ v = value) ∨ peek c k = some v

namespace Cache

variable {K V C : Type} (M : Cache K V C)

/-- The cached answer, or else the given one, which the cache then keeps. -/
def memo (key : K) (value : V) (c : C) : V × C :=
  match M.get key c with
  | (some found, c') => (found, c')
  | (none, c') => (value, M.put key value c')

variable {M}

theorem memo_value {key : K} {value : V} {c : C}
    (h : ∀ found, M.peek c key = some found → found = value) : (M.memo key value c).1 = value := by
  have hpeek := M.get_peek key c
  unfold memo
  split
  · rename_i found c' hget
    rw [hget] at hpeek
    exact h found hpeek.symm
  · rfl

theorem memo_peek {key : K} {value : V} {c : C} {k : K} {v : V}
    (h : M.peek (M.memo key value c).2 k = some v) :
    (k = key ∧ v = value) ∨ M.peek c k = some v := by
  have hkept := M.peek_get key c k v
  unfold memo at h
  split at h
  · rename_i found c' hget
    rw [hget] at hkept
    exact Or.inr (hkept h)
  · rename_i c' hget
    rw [hget] at hkept
    exact (M.peek_put key value c' k v h).imp_right hkept

end Cache

namespace Lru

variable {K V : Type} [DecidableEq K]

/-- The answer under a key, in a list that has the one used last in front. -/
def lookup (key : K) (entries : List (K × V)) : Option V :=
  (entries.find? fun entry => entry.1 = key).map Prod.snd

def without (key : K) (entries : List (K × V)) : List (K × V) :=
  entries.filter fun entry => entry.1 ≠ key

theorem lookup_without {key k : K} {entries : List (K × V)} (h : k ≠ key) :
    lookup k (without key entries) = lookup k entries := by
  unfold lookup without
  rw [List.find?_filter]
  congr 2
  funext entry
  by_cases hk : entry.1 = k
  · simp [hk, h]
  · simp [hk]

theorem lookup_cons {key k : K} {value v : V} {entries : List (K × V)}
    (h : lookup k ((key, value) :: entries) = some v) :
    (k = key ∧ v = value) ∨ k ≠ key ∧ lookup k entries = some v := by
  by_cases hk : key = k
  · subst hk
    simp only [lookup, List.find?_cons, decide_true] at h
    exact Or.inl ⟨rfl, (Option.some.inj h).symm⟩
  · simp only [lookup, List.find?_cons, hk, decide_false] at h
    exact Or.inr ⟨fun hkey => hk hkey.symm, h⟩

theorem lookup_take {k : K} {v : V} {n : Nat} {entries : List (K × V)}
    (h : lookup k (entries.take n) = some v) : lookup k entries = some v := by
  obtain ⟨entry, hfind, rfl⟩ := Option.map_eq_some_iff.mp h
  unfold lookup
  rw [(List.take_prefix n entries).find?_eq_some hfind]
  rfl

/-- A cache of `capacity` answers that forgets the one used least recently. -/
def cache (capacity : Nat) : Cache K V (List (K × V)) where
  empty := []
  get key entries :=
    match lookup key entries with
    | some value => (some value, (key, value) :: without key entries)
    | none => (none, entries)
  put key value entries := ((key, value) :: without key entries).take capacity
  peek entries key := lookup key entries
  peek_empty _ := rfl
  get_peek key entries := by
    split
    · rename_i value h
      exact h.symm
    · rename_i h
      exact h.symm
  peek_get key entries k v h := by
    split at h
    · rename_i value hfound
      rcases lookup_cons h with ⟨rfl, rfl⟩ | ⟨hne, hold⟩
      · exact hfound
      · rwa [lookup_without hne] at hold
    · exact h
  peek_put key value entries k v h := by
    rcases lookup_cons (lookup_take h) with hnew | ⟨hne, hold⟩
    · exact Or.inl hnew
    · rw [lookup_without hne] at hold
      exact Or.inr hold

end Lru

end Seance.Lib
