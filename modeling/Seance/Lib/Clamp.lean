import Mathlib.Algebra.Order.Field.Basic
import Mathlib.Algebra.Order.Group.MinMax
import Mathlib.Tactic.Linarith

namespace Seance.Lib

section Order

variable {α : Type} [LinearOrder α] {lo hi x : α}

/-- The closest number of the range: a position that cannot leave `[lo, hi]`. -/
def clamp (lo hi x : α) : α := max lo (min hi x)

/-- Where a clamped number comes from; every fact below is read off these three cases. -/
theorem clamp_cases (h : lo ≤ hi) (x : α) :
    (x < lo ∧ clamp lo hi x = lo) ∨ (lo ≤ x ∧ x ≤ hi ∧ clamp lo hi x = x) ∨
      (hi < x ∧ clamp lo hi x = hi) := by
  unfold clamp
  rcases lt_or_ge x lo with hl | hl
  · exact Or.inl ⟨hl, by rw [min_eq_right (le_trans (le_of_lt hl) h), max_eq_left (le_of_lt hl)]⟩
  rcases lt_or_ge hi x with hh | hh
  · exact Or.inr (Or.inr ⟨hh, by rw [min_eq_left (le_of_lt hh), max_eq_right h]⟩)
  · exact Or.inr (Or.inl ⟨hl, hh, by rw [min_eq_right hh, max_eq_right hl]⟩)

theorem le_clamp (lo hi x : α) : lo ≤ clamp lo hi x := le_max_left _ _

theorem clamp_le (h : lo ≤ hi) (x : α) : clamp lo hi x ≤ hi := max_le h (min_le_left _ _)

theorem clamp_of_mem (hl : lo ≤ x) (hh : x ≤ hi) : clamp lo hi x = x := by
  rw [clamp, min_eq_right hh, max_eq_right hl]

theorem clamp_of_le (hl : lo ≤ hi) (h : hi ≤ x) : clamp lo hi x = hi := by
  rw [clamp, min_eq_left h, max_eq_right hl]

theorem clamp_of_ge (h : x ≤ lo) : clamp lo hi x = lo := by
  rw [clamp, max_eq_left (le_trans (min_le_right _ _) h)]

theorem clamp_mono {y : α} (h : x ≤ y) : clamp lo hi x ≤ clamp lo hi y :=
  max_le_max_left lo (min_le_min_left hi h)

/-- A shift lands on the upper end exactly when it reaches it. -/
theorem clamp_eq_hi_iff (h : lo ≤ hi) : clamp lo hi x = hi ↔ hi ≤ x ∨ hi ≤ lo := by
  rcases clamp_cases h x with ⟨hx, he⟩ | ⟨hl, hh, he⟩ | ⟨hx, he⟩ <;> rw [he]
  · exact ⟨fun e => Or.inr (le_of_eq e.symm),
      fun o => o.elim (fun hu => absurd hx (not_lt.mpr (le_trans h hu))) (le_antisymm h)⟩
  · exact ⟨fun e => Or.inl (le_of_eq e.symm),
      fun o => o.elim (le_antisymm hh) (fun hu => le_antisymm hh (le_trans hu hl))⟩
  · exact ⟨fun _ => Or.inl (le_of_lt hx), fun _ => rfl⟩

end Order

section Scaling

variable {α : Type} [Field α] [LinearOrder α] [IsStrictOrderedRing α] {c : α} (lo hi x : α)

theorem clamp_sub : clamp lo hi x - c = clamp (lo - c) (hi - c) (x - c) := by
  unfold clamp
  rw [← max_sub_sub_right, ← min_sub_sub_right]

theorem clamp_mul (hc : 0 ≤ c) : clamp lo hi x * c = clamp (lo * c) (hi * c) (x * c) := by
  unfold clamp
  rw [max_mul_of_nonneg _ _ hc, min_mul_of_nonneg _ _ hc]

theorem clamp_div (hc : 0 ≤ c) : clamp lo hi x / c = clamp (lo / c) (hi / c) (x / c) := by
  unfold clamp
  rw [← max_div_div_right hc, ← min_div_div_right hc]

end Scaling

section Steps

variable {α : Type} [CommRing α] [LinearOrder α] {lo hi u d x : α}

/-- The step `d` from the clamped `u` ends where the step from `u` itself does: `u` is inside
the range, or `d` leads further out, or all the way past the other end. -/
structure Carries (lo hi u d : α) : Prop where
  below : u < lo → 0 < d → lo < hi → hi ≤ u + d
  above : hi < u → d < 0 → lo < hi → u + d ≤ lo

theorem Carries.of_mem (hl : lo ≤ u) (hh : u ≤ hi) (d : α) : Carries lo hi u d :=
  ⟨fun h => absurd hl (not_le.mpr h), fun h => absurd hh (not_le.mpr h)⟩

variable [IsStrictOrderedRing α]

theorem clamp_clamp_add_iff (h : lo ≤ hi) :
    clamp lo hi (clamp lo hi u + d) = clamp lo hi (u + d) ↔ Carries lo hi u d := by
  rcases clamp_cases h u with ⟨hu, he⟩ | ⟨hl, hh, he⟩ | ⟨hu, he⟩ <;> rw [he]
  · constructor
    · intro heq
      refine ⟨fun _ hd hlt => ?_, fun hc => absurd h (not_le.mpr (lt_trans hc hu))⟩
      by_contra hn
      rcases clamp_cases h (lo + d) with ⟨ha, ea⟩ | ⟨_, _, ea⟩ | ⟨_, ea⟩ <;>
        rcases clamp_cases h (u + d) with ⟨_, eb⟩ | ⟨_, _, eb⟩ | ⟨_, eb⟩ <;>
        rw [ea, eb] at heq <;> linarith
    · intro hc
      rcases le_or_gt d 0 with hd | hd
      · rw [clamp_of_ge (by linarith), clamp_of_ge (by linarith)]
      rcases le_or_gt hi lo with hlt | hlt
      · have hall (y : α) : clamp lo hi y = lo :=
          le_antisymm (le_trans (clamp_le h y) hlt) (le_clamp lo hi y)
        rw [hall, hall]
      · have hup := hc.below hu hd hlt
        rw [clamp_of_le h (by linarith), clamp_of_le h hup]
  · exact ⟨fun _ => Carries.of_mem hl hh d, fun _ => rfl⟩
  · constructor
    · intro heq
      refine ⟨fun hc => absurd h (not_le.mpr (lt_trans hu hc)), fun _ hd hlt => ?_⟩
      by_contra hn
      rcases clamp_cases h (hi + d) with ⟨ha, ea⟩ | ⟨_, _, ea⟩ | ⟨_, ea⟩ <;>
        rcases clamp_cases h (u + d) with ⟨_, eb⟩ | ⟨_, _, eb⟩ | ⟨_, eb⟩ <;>
        rw [ea, eb] at heq <;> linarith
    · intro hc
      rcases le_or_gt 0 d with hd | hd
      · rw [clamp_of_le h (by linarith), clamp_of_le h (by linarith)]
      rcases le_or_gt hi lo with hlt | hlt
      · have hall (y : α) : clamp lo hi y = lo :=
          le_antisymm (le_trans (clamp_le h y) hlt) (le_clamp lo hi y)
        rw [hall, hall]
      · have hdown := hc.above hu hd hlt
        rw [clamp_of_ge (by linarith), clamp_of_ge hdown]

/-- A sum kept in `[least, most]` moves a position as the exact sum does: where the sum is cut,
the cut one still reaches the end. -/
structure Reaches (least most lo hi x s : α) : Prop where
  above : most < s → hi ≤ x + most
  below : s < least → x + least ≤ lo

/-- Merging the step `d` into a sum `s` that is kept in `[least, most]`: from a position inside
the range, the merged step ends where the two steps in turn do. -/
theorem clamp_merged_iff {least most s : α} (h : lo ≤ hi) (hx : lo ≤ x ∧ x ≤ hi)
    (hs : least ≤ s ∧ s ≤ most) (hd : least ≤ d ∧ d ≤ most) (hz : least ≤ 0 ∧ 0 ≤ most) :
    clamp lo hi (x + clamp least most (s + d)) = clamp lo hi (clamp lo hi (x + s) + d) ↔
      Carries lo hi (x + s) d ∧ Reaches least most lo hi x (s + d) := by
  have hlm : least ≤ most := le_trans hz.1 hz.2
  rcases clamp_cases hlm (s + d) with ⟨hc, he⟩ | ⟨hl, hh, he⟩ | ⟨hc, he⟩ <;> rw [he]
  · -- both steps lead down, so the first one ends inside the range or at its lower end
    have hsn : s < 0 := by linarith
    have hdn : d < 0 := by linarith
    have hcar : Carries lo hi (x + s) d :=
      ⟨fun _ hp => absurd hp (not_lt.mpr (le_of_lt hdn)), fun hu => by linarith⟩
    rw [(clamp_clamp_add_iff h).mpr hcar]
    constructor
    · intro heq
      refine ⟨hcar, fun hu => by linarith, fun _ => ?_⟩
      by_contra hn
      rcases clamp_cases h (x + least) with ⟨_, ea⟩ | ⟨_, _, ea⟩ | ⟨_, ea⟩ <;>
        rcases clamp_cases h (x + s + d) with ⟨_, eb⟩ | ⟨_, _, eb⟩ | ⟨_, eb⟩ <;>
        rw [ea, eb] at heq <;> linarith
    · rintro ⟨_, hr⟩
      have hlow := hr.below hc
      rw [clamp_of_ge hlow, clamp_of_ge (by linarith)]
  · have hr : Reaches least most lo hi x (s + d) :=
      ⟨fun hu => absurd hh (not_le.mpr hu), fun hu => absurd hl (not_le.mpr hu)⟩
    rw [eq_comm, ← add_assoc, clamp_clamp_add_iff h]
    exact ⟨fun hcar => ⟨hcar, hr⟩, And.left⟩
  · have hsp : 0 < s := by linarith
    have hdp : 0 < d := by linarith
    have hcar : Carries lo hi (x + s) d :=
      ⟨fun hu => by linarith, fun _ hn => absurd hn (not_lt.mpr (le_of_lt hdp))⟩
    rw [(clamp_clamp_add_iff h).mpr hcar]
    constructor
    · intro heq
      refine ⟨hcar, fun _ => ?_, fun hu => by linarith⟩
      by_contra hn
      rcases clamp_cases h (x + most) with ⟨_, ea⟩ | ⟨_, _, ea⟩ | ⟨_, ea⟩ <;>
        rcases clamp_cases h (x + s + d) with ⟨_, eb⟩ | ⟨_, _, eb⟩ | ⟨_, eb⟩ <;>
        rw [ea, eb] at heq <;> linarith
    · rintro ⟨_, hr⟩
      have hup := hr.above hc
      rw [clamp_of_le h hup, clamp_of_le h (by linarith)]

end Steps

end Seance.Lib
