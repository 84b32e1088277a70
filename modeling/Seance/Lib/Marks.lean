import Mathlib.Data.List.Nodup

namespace Seance.Lib

variable {ι : Type}

/-- Two items change places; nothing is done where a position is out of range. -/
def swap (items : List ι) (i j : Nat) : List ι :=
  match items[i]?, items[j]? with
  | some a, some b => (items.set i b).set j a
  | _, _ => items

/-- A position in a list, and the item it was put on. -/
structure Mark (ι : Type) where
  position : Option Nat
  item : Option ι
  deriving DecidableEq

namespace Mark

/-- While it is set and the item is in the list, the position is where the item is. -/
def Follows (mark : Mark ι) (items : List ι) : Prop :=
  ∀ t ∈ items, mark.item = some t → ∀ p, mark.position = some p → items[p]? = some t

/-- The mark is at a position, with its item there. -/
def StandsAt (mark : Mark ι) (items : List ι) (p : Nat) : Prop :=
  mark.position = some p ∧ mark.item.isSome ∧ items[p]? = mark.item

/-- The position that is left to a mark when the item at another is removed and nothing is done but to
keep it in range. -/
def clamped (position : Option Nat) (items : List ι) : Option Nat :=
  position.bind fun p => if items.isEmpty then none else some (min p (items.length - 1))

end Mark

section Lists

variable {items : List ι} {i j k : Nat} {a : ι}

theorem swap_perm : (swap items i j).Perm items := by
  unfold swap
  split
  · rename_i a b hi hj
    obtain ⟨hilt, rfl⟩ := List.getElem?_eq_some_iff.mp hi
    obtain ⟨hjlt, rfl⟩ := List.getElem?_eq_some_iff.mp hj
    exact List.set_set_perm hilt hjlt
  · exact .refl _

theorem getElem?_swap (hi : i < items.length) (hj : j < items.length) :
    (swap items i j)[k]? = if k = j then items[i]? else if k = i then items[j]? else items[k]? := by
  simp only [swap, List.getElem?_eq_getElem hi, List.getElem?_eq_getElem hj, List.getElem?_set,
    List.length_set]
  grind

theorem map_swap {κ : Type} (f : ι → κ) : (swap items i j).map f = swap (items.map f) i j := by
  simp only [swap, List.getElem?_map]
  cases items[i]? with
  | none => rfl
  | some a =>
    cases items[j]? with
    | none => rfl
    | some b => simp only [Option.map_some, List.map_set]

@[simp] theorem swap_self : swap items i i = items := by
  unfold swap
  split
  · rename_i a b hi hj
    obtain ⟨hlt, rfl⟩ := List.getElem?_eq_some_iff.mp hi
    cases hi.symm.trans hj
    rw [List.set_set, List.set_getElem_self]
  · rfl

theorem position_unique (hnodup : items.Nodup) (hi : items[i]? = some a) (hj : items[j]? = some a) :
    i = j :=
  (List.getElem?_inj (List.getElem?_eq_some_iff.mp hi).1 hnodup).mp (hi.trans hj.symm)

end Lists

namespace Mark

variable {items : List ι} {mark : Mark ι} {i j k : Nat} {x : ι}

/-- A mark that is put on an item follows it. -/
theorem follows_put (p : Nat) : (Mark.mk (some p) items[p]?).Follows items := by
  intro t _ hitem q hq
  cases hq
  exact hitem

theorem follows_unset (item : Option ι) : (Mark.mk none item).Follows items := nofun

/-- A new item put last is no mark's concern. -/
theorem Follows.append (h : mark.Follows items) (hnew : mark.item ≠ some x) :
    mark.Follows (items ++ [x]) := by
  intro t ht hitem p hp
  have hold : t ∈ items := by
    rcases List.mem_append.mp ht with hold | hlast
    · exact hold
    · exact absurd (List.mem_singleton.mp hlast ▸ hitem) hnew
  have hat := h t hold hitem p hp
  rw [List.getElem?_append_left (List.getElem?_eq_some_iff.mp hat).1, hat]

theorem Follows.standsAt {t : ι} (h : mark.Follows items) (ht : t ∈ items)
    (hitem : mark.item = some t) {p : Nat} (hp : mark.position = some p) :
    mark.StandsAt items p :=
  ⟨hp, by rw [hitem]; rfl, by rw [h t ht hitem p hp, hitem]⟩

/-- Two other items may change places, but not the marked one with another. -/
theorem follows_swap_iff (h : mark.Follows items) (hnodup : items.Nodup) (hi : i < items.length)
    (hj : j < items.length) :
    mark.Follows (swap items i j) ↔ i = j ∨ ∀ p, mark.StandsAt items p → p ≠ i ∧ p ≠ j := by
  by_cases hij : i = j
  · subst hij
    simpa using h
  constructor
  · rintro hswap
    refine .inr fun p ⟨hp, hsome, hat⟩ => ?_
    obtain ⟨t, hitem⟩ := Option.isSome_iff_exists.mp hsome
    rw [hitem] at hat
    have hthere := hswap t (swap_perm.mem_iff.mpr (List.mem_of_getElem? hat)) hitem p hp
    rw [getElem?_swap hi hj] at hthere
    refine ⟨fun hpi => ?_, fun hpj => ?_⟩
    · rw [hpi, if_neg hij, if_pos rfl] at hthere
      exact hij (position_unique hnodup (hpi ▸ hat) hthere)
    · rw [hpj, if_pos rfl] at hthere
      exact hij (position_unique hnodup hthere (hpj ▸ hat))
  · rintro (hij' | hother) t ht hitem p hp
    · exact absurd hij' hij
    have hmem := swap_perm.mem_iff.mp ht
    obtain ⟨hpi, hpj⟩ := hother p (h.standsAt hmem hitem hp)
    rw [getElem?_swap hi hj, if_neg hpj, if_neg hpi]
    exact h t hmem hitem p hp

theorem mem_eraseIdx (hnodup : items.Nodup) {t : ι} {p : Nat} (hat : items[p]? = some t) :
    t ∈ items.eraseIdx k ↔ p ≠ k := by
  rw [List.mem_eraseIdx_iff_getElem?]
  constructor
  · rintro ⟨q, hqk, hq⟩
    rwa [position_unique hnodup hat hq]
  · exact fun hpk => ⟨p, hpk, hat⟩

/-- A position that stays as it is follows its item past a removal unless that was before it. -/
theorem follows_eraseIdx_iff (h : mark.Follows items) (hnodup : items.Nodup) :
    mark.Follows (items.eraseIdx k) ↔ ∀ p, mark.StandsAt items p → p ≤ k := by
  constructor
  · rintro hafter p ⟨hp, hsome, hat⟩
    obtain ⟨t, hitem⟩ := Option.isSome_iff_exists.mp hsome
    rw [hitem] at hat
    by_contra hlt
    have hthere := hafter t ((mem_eraseIdx hnodup hat).mpr (by omega)) hitem p hp
    rw [List.getElem?_eraseIdx, if_neg (by omega)] at hthere
    exact absurd (position_unique hnodup hat hthere) (by omega)
  · rintro hbefore t ht hitem p hp
    have hat := h t (List.mem_of_mem_eraseIdx ht) hitem p hp
    have hne := (mem_eraseIdx hnodup hat).mp ht
    have hle := hbefore p (h.standsAt (List.mem_of_mem_eraseIdx ht) hitem hp)
    rw [List.getElem?_eraseIdx, if_pos (by omega), hat]

/-- One that is kept in range also follows the last item. -/
theorem follows_clamped_iff (h : mark.Follows items) (hnodup : items.Nodup)
    (hk : k < items.length) :
    (Mark.mk (clamped mark.position (items.eraseIdx k)) mark.item).Follows (items.eraseIdx k) ↔
      ∀ p, mark.StandsAt items p → p ≤ k ∨ p + 1 = items.length := by
  have hlength := List.length_eraseIdx_of_lt hk
  constructor
  · rintro hafter p ⟨hp, hsome, hat⟩
    obtain ⟨t, hitem⟩ := Option.isSome_iff_exists.mp hsome
    rw [hitem] at hat
    have hrange := (List.getElem?_eq_some_iff.mp hat).1
    by_contra hlt
    have hmem := (mem_eraseIdx (k := k) hnodup hat).mpr (by omega)
    have hposition : clamped mark.position (items.eraseIdx k) = some p := by
      rw [hp, clamped, Option.bind_some,
        if_neg (by simpa using List.ne_nil_of_mem hmem)]
      congr 1
      omega
    have hthere := hafter t hmem hitem p hposition
    rw [List.getElem?_eraseIdx, if_neg (by omega)] at hthere
    exact absurd (position_unique hnodup hat hthere) (by omega)
  · rintro hbefore t ht hitem q hq
    obtain ⟨p, hp, hq⟩ := Option.bind_eq_some_iff.mp hq
    rw [if_neg (by simpa using List.ne_nil_of_mem ht), Option.some.injEq] at hq
    have hat := h t (List.mem_of_mem_eraseIdx ht) hitem p hp
    have hrange := (List.getElem?_eq_some_iff.mp hat).1
    have hne := (mem_eraseIdx hnodup hat).mp ht
    rw [List.getElem?_eraseIdx]
    rcases hbefore p (h.standsAt (List.mem_of_mem_eraseIdx ht) hitem hp) with hle | hlast
    · rw [if_pos (by omega), show q = p by omega, hat]
    · by_cases hpk : p < k
      · rw [if_pos (by omega), show q = p by omega, hat]
      · rw [if_neg (by omega), show q + 1 = p by omega, hat]

end Mark

end Seance.Lib
