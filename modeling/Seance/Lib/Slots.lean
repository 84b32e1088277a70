import Mathlib.Order.Nat

namespace Seance.Lib

/-- Places that hold at most one thing each, the things numbered as they come. -/
structure Slots (κ : Type) where
  holds : κ → Option Nat
  opened : Nat

namespace Slots

variable {κ : Type} {s s' s'' : Slots κ} {closes closes' : κ → Bool}

/-- What stands in a slot came before the next thing to come. -/
def Numbered (s : Slots κ) : Prop := ∀ k n, s.holds k = some n → n < s.opened

/-- Some slots are emptied or given something new, and the others are left as they are. -/
structure Turned (s s' : Slots κ) (closes : κ → Bool) : Prop where
  opened : s.opened ≤ s'.opened
  stays : ∀ k, closes k = false → s'.holds k = s.holds k
  replaced : ∀ k, closes k = true → ∀ n, s'.holds k = some n → s.opened ≤ n ∧ n < s'.opened

theorem Turned.refl : Turned s s fun _ => false := ⟨Nat.le_refl _, fun _ _ => rfl, nofun⟩

theorem Turned.trans (h : Turned s s' closes) (h' : Turned s' s'' closes') :
    Turned s s'' fun k => closes k || closes' k where
  opened := h.opened.trans h'.opened
  stays k hk := by
    obtain ⟨hfirst, hsecond⟩ := Bool.or_eq_false_iff.mp hk
    rw [h'.stays k hsecond, h.stays k hfirst]
  replaced k hk n hn := by
    cases hsecond : closes' k with
    | true =>
      obtain ⟨hlow, hhigh⟩ := h'.replaced k hsecond n hn
      exact ⟨h.opened.trans hlow, hhigh⟩
    | false =>
      rw [hsecond, Bool.or_false] at hk
      obtain ⟨hlow, hhigh⟩ := h.replaced k hk n (h'.stays k hsecond ▸ hn)
      exact ⟨hlow, hhigh.trans_le h'.opened⟩

theorem Turned.numbered (h : Turned s s' closes) (hnumbered : s.Numbered) : s'.Numbered := by
  intro k n hn
  cases hk : closes k with
  | true => exact (h.replaced k hk n hn).2
  | false => exact (hnumbered k n (h.stays k hk ▸ hn)).trans_le h.opened

/-- What stood in a slot is still there exactly if the slot was not turned over. -/
theorem Turned.stays_iff (h : Turned s s' closes) {k : κ} {n : Nat} (hn : s.holds k = some n)
    (hlow : n < s.opened) : s'.holds k = some n ↔ closes k = false := by
  constructor
  · intro hn'
    by_contra hk
    exact absurd (h.replaced k (by simpa using hk) n hn').1 (by omega)
  · intro hk
    rw [h.stays k hk, hn]

end Slots

end Seance.Lib
