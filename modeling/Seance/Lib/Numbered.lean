import Mathlib.Data.List.Range
import Mathlib.Order.Nat

namespace Seance.Lib

variable {slots : List (Option Nat)} {n i j p q : Nat}

/-- The slots that hold something are numbered in their order. -/
def Numbered (slots : List (Option Nat)) (n : Nat) : Prop := slots.filterMap id = List.range n

/-- How many things come before a place. -/
def held_before (slots : List (Option Nat)) (place : Nat) : Nat :=
  ((slots.take place).filterMap id).length

/-- The places of the slots that hold something, counted from one on. -/
def held_places (place : Nat) : List (Option Nat) → List Nat
  | [] => []
  | none :: slots => held_places (place + 1) slots
  | some _ :: slots => place :: held_places (place + 1) slots

theorem held_before_mono (h : p ≤ q) : held_before slots p ≤ held_before slots q :=
  ((List.take_prefix_take_left h).sublist.filterMap id).length_le

theorem held_before_zero (slots : List (Option Nat)) : held_before slots 0 = 0 := rfl

/-- The places lead to what has as many things before it. -/
theorem held_places_getElem? (place : Nat) : (held_places place slots)[j]? = some p ↔
    ∃ q a, p = place + q ∧ slots[q]? = some (some a) ∧ held_before slots q = j := by
  induction slots generalizing place j with
  | nil => exact ⟨nofun, fun ⟨_, _, _, h, _⟩ => by cases h⟩
  | cons slot slots ih =>
    cases slot with
    | none =>
      refine (ih (place + 1)).trans ⟨?_, ?_⟩
      · rintro ⟨q, a, hp, hq, hj⟩
        exact ⟨q + 1, a, by omega, hq, hj⟩
      · rintro ⟨q, a, hp, hq, hj⟩
        cases q with
        | zero => cases hq
        | succ q => exact ⟨q, a, by omega, hq, hj⟩
    | some b =>
      cases j with
      | zero =>
        constructor
        · intro h
          cases h
          exact ⟨0, b, rfl, rfl, rfl⟩
        · rintro ⟨q, a, hp, hq, hj⟩
          cases q with
          | zero => exact congrArg some hp.symm
          | succ q => cases hj
      | succ j =>
        refine (ih (place + 1)).trans ⟨?_, ?_⟩
        · rintro ⟨q, a, hp, hq, hj⟩
          exact ⟨q + 1, a, by omega, hq, congrArg Nat.succ hj⟩
        · rintro ⟨q, a, hp, hq, hj⟩
          cases q with
          | zero => cases hj
          | succ q => exact ⟨q, a, by omega, hq, Nat.succ.inj hj⟩

theorem held_places_append (place : Nat) (slots more : List (Option Nat)) :
    held_places place (slots ++ more) =
      held_places place slots ++ held_places (place + slots.length) more := by
  induction slots generalizing place with
  | nil => rfl
  | cons slot slots ih =>
    cases slot with
    | none =>
      rw [List.cons_append, held_places, held_places, ih, List.length_cons]
      congr 2
      omega
    | some a =>
      rw [List.cons_append, held_places, held_places, ih, List.length_cons, List.cons_append]
      congr 3
      omega

theorem held_places_length (place : Nat) (slots : List (Option Nat)) :
    (held_places place slots).length = (slots.filterMap id).length := by
  induction slots generalizing place with
  | nil => rfl
  | cons slot slots ih =>
    cases slot with
    | none => exact ih (place + 1)
    | some a => exact congrArg Nat.succ (ih (place + 1))

theorem held_places_pairwise (place : Nat) (slots : List (Option Nat)) :
    (held_places place slots).Pairwise (· < ·) ∧ ∀ p ∈ held_places place slots, place ≤ p := by
  induction slots generalizing place with
  | nil => exact ⟨List.Pairwise.nil, List.forall_mem_nil _⟩
  | cons slot slots ih =>
    obtain ⟨hup, habove⟩ := ih (place + 1)
    cases slot with
    | none => exact ⟨hup, fun p hp => Nat.le_of_succ_le (habove p hp)⟩
    | some a =>
      exact ⟨List.pairwise_cons.mpr ⟨habove, hup⟩,
        List.forall_mem_cons.mpr ⟨Nat.le_refl _, fun p hp => Nat.le_of_succ_le (habove p hp)⟩⟩

namespace Numbered

theorem split (h : Numbered slots n) (place : Nat) :
    (slots.take place).filterMap id ++ (slots.drop place).filterMap id = List.range n := by
  rw [← List.filterMap_append, List.take_append_drop]
  exact h

theorem held_before_le (h : Numbered slots n) (place : Nat) : held_before slots place ≤ n := by
  have hlength := congrArg List.length (h.split place)
  rw [List.length_append, List.length_range] at hlength
  exact Nat.le.intro hlength

/-- In front of a place stand the first numbers. -/
theorem before (h : Numbered slots n) (place : Nat) :
    (slots.take place).filterMap id = List.range (held_before slots place) := by
  have htake := congrArg (List.take (held_before slots place)) (h.split place)
  rwa [held_before, List.take_left, ← held_before, List.take_range,
    Nat.min_eq_left (h.held_before_le place)] at htake

/-- Behind a place go on the numbers. -/
theorem behind (h : Numbered slots n) (place : Nat) :
    (slots.drop place).filterMap id =
      List.range' (held_before slots place) (n - held_before slots place) := by
  have hdrop := congrArg (List.drop (held_before slots place)) (h.split place)
  rwa [held_before, List.drop_left, ← held_before, List.range_eq_range', List.drop_range',
    Nat.zero_add, Nat.mul_one] at hdrop

/-- A slot holds the number of what comes before it. -/
theorem held (h : Numbered slots n) (hslot : slots[p]? = some (some i)) :
    held_before slots p = i ∧ held_before slots (p + 1) = i + 1 := by
  have htake : slots.take (p + 1) = slots.take p ++ [some i] := by
    rw [List.take_add_one, hslot]
    rfl
  have hnext := h.before (p + 1)
  have hcount : held_before slots (p + 1) = held_before slots p + 1 := by
    rw [held_before, htake, List.filterMap_append, List.length_append]
    rfl
  rw [htake, List.filterMap_append, h.before p, hcount, List.range_succ] at hnext
  have hlast := List.append_cancel_left hnext
  cases hlast
  exact ⟨rfl, hcount⟩

theorem held_lt (h : Numbered slots n) (hslot : slots[p]? = some (some i)) : i < n := by
  have hle := h.held_before_le (p + 1)
  rw [(h.held hslot).2] at hle
  exact hle

theorem place_mono (h : Numbered slots n) (hp : slots[p]? = some (some i))
    (hq : slots[q]? = some (some j)) (hle : i ≤ j) : p ≤ q := by
  by_contra hlt
  have hbefore : held_before slots (q + 1) ≤ held_before slots p :=
    held_before_mono (Nat.lt_of_not_le hlt)
  rw [(h.held hq).2, (h.held hp).1] at hbefore
  omega

/-- Numbers and places lead to each other. -/
theorem held_places_iff (h : Numbered slots n) :
    (held_places 0 slots)[i]? = some p ↔ slots[p]? = some (some i) := by
  rw [held_places_getElem?]
  constructor
  · rintro ⟨q, a, hp, hslot, hi⟩
    rw [← hi, (h.held hslot).1, hp, Nat.zero_add, hslot]
  · exact fun hslot => ⟨p, i, (Nat.zero_add p).symm, hslot, (h.held hslot).1⟩

/-- The first thing from a place on. -/
theorem head_behind (h : Numbered slots n) (place : Nat) :
    ((slots.drop place).filterMap id).head? =
      if held_before slots place < n then some (held_before slots place) else none := by
  rw [h.behind, List.head?_range']
  split <;> split <;> first | rfl | omega

/-- The last thing before a place. -/
theorem last_before (h : Numbered slots n) (place : Nat) :
    ((slots.take place).filterMap id).getLast? =
      if held_before slots place = 0 then none else some (held_before slots place - 1) := by
  rw [h.before, List.getLast?_range]

end Numbered

end Seance.Lib
