import Mathlib.Data.List.Sort
import Seance.Lib.Table

namespace Seance.Lib

variable {ρ κ : Type}

/-- SELECT … ORDER BY: rows put in order by a comparison, equal ones in the order found. -/
def orderBy (cmp : ρ → ρ → Ordering) (rows : List ρ) : List ρ :=
  rows.insertionSort (fun a b => (cmp a b).isLE)

section Order

variable (cmp : ρ → ρ → Ordering)

theorem orderBy_perm (rows : List ρ) : (orderBy cmp rows).Perm rows :=
  List.perm_insertionSort _ rows

@[simp] theorem mem_orderBy {rows : List ρ} {r : ρ} : r ∈ orderBy cmp rows ↔ r ∈ rows :=
  (orderBy_perm cmp rows).mem_iff

variable [Std.TransCmp cmp]

theorem orderBy_pairwise (rows : List ρ) :
    (orderBy cmp rows).Pairwise (fun a b => (cmp a b).isLE) := by
  have htrans : IsTrans ρ (fun a b => ((cmp a b).isLE : Prop)) :=
    ⟨fun _ _ _ hab hbc => Std.TransCmp.isLE_trans hab hbc⟩
  have htotal : Std.Total (fun a b : ρ => ((cmp a b).isLE : Prop)) := by
    refine ⟨fun a b => ?_⟩
    cases h : cmp a b with
    | lt => exact .inl rfl
    | eq => exact .inl rfl
    | gt =>
      have hswap : cmp b a = (cmp a b).swap := Std.OrientedCmp.eq_swap
      right
      rw [hswap, h]
      rfl
  exact List.pairwise_insertionSort _ rows

/-- Rows already in order stay as they are. -/
theorem orderBy_orderBy (rows : List ρ) : orderBy cmp (orderBy cmp rows) = orderBy cmp rows :=
  (orderBy_pairwise cmp rows).insertionSort_eq

/-- A row put into rows in order keeps its place when others are left out. -/
theorem filter_orderedInsert (test : ρ → Bool) (r : ρ) {rows : List ρ}
    (h : rows.Pairwise (fun a b => (cmp a b).isLE)) :
    (rows.orderedInsert (fun a b => (cmp a b).isLE) r).filter test =
      if test r then (rows.filter test).orderedInsert (fun a b => (cmp a b).isLE) r
      else rows.filter test := by
  induction rows with
  | nil => simp [List.filter_cons]
  | cons a rows ih =>
    obtain ⟨ha, hrows⟩ := List.pairwise_cons.mp h
    rw [List.orderedInsert_cons]
    split
    · rename_i hle
      rw [List.filter_cons]
      split
      · cases hkept : (a :: rows).filter test with
        | nil => rfl
        | cons b kept =>
          have hb : b ∈ a :: rows := (List.mem_filter.mp (hkept ▸ List.mem_cons_self)).1
          have hrb : (cmp r b).isLE := by
            rcases List.mem_cons.mp hb with rfl | hb
            · exact hle
            · exact Std.TransCmp.isLE_trans hle (ha b hb)
          rw [List.orderedInsert_cons, if_pos hrb]
      · rfl
    · rename_i hlt
      rw [List.filter_cons, ih hrows, List.filter_cons]
      split
      · split
        · rw [List.orderedInsert_cons, if_neg hlt]
        · rfl
      · rfl

/-- Rows can be left out before they are put in order or after. -/
theorem filter_orderBy (test : ρ → Bool) (rows : List ρ) :
    (orderBy cmp rows).filter test = orderBy cmp (rows.filter test) := by
  induction rows with
  | nil => rfl
  | cons r rows ih =>
    change (List.orderedInsert _ r (orderBy cmp rows)).filter test = _
    rw [filter_orderedInsert cmp test r (orderBy_pairwise cmp rows), ih, List.filter_cons]
    split <;> rfl

end Order

/-- A rewrite of the rows that the comparison does not see can be made before or after. -/
theorem orderBy_map {σ : Type} {cmp : ρ → ρ → Ordering} {cmp' : σ → σ → Ordering} (f : ρ → σ)
    (h : ∀ a b, cmp' (f a) (f b) = cmp a b) (rows : List ρ) :
    orderBy cmp' (rows.map f) = (orderBy cmp rows).map f :=
  (List.map_insertionSort _ _ f rows (fun a _ b _ => by rw [h])).symm

section Last

variable [LinearOrder κ] {f : ρ → κ}

theorem isLE_compareOn {a b : ρ} : (compareOn f a b).isLE ↔ f a ≤ f b := by
  rw [← Ordering.ne_gt_iff_isLE]
  exact compare_le_iff_le

/-- A row put into rows in order goes to the end only where it is larger than the last one. -/
theorem getLast?_orderedInsert (r : ρ) {rows : List ρ}
    (h : rows.Pairwise (fun a b => (compareOn f a b).isLE)) :
    (rows.orderedInsert (fun a b => (compareOn f a b).isLE) r).getLast? =
      match rows.getLast? with
      | none => some r
      | some m => if f r ≤ f m then some m else some r := by
  induction rows with
  | nil => rfl
  | cons a rows ih =>
    have hlast : ∀ m, (a :: rows).getLast? = some m → f a ≤ f m := by
      intro m hm
      rcases List.mem_cons.mp (List.mem_of_getLast? hm) with rfl | hmem
      · exact le_refl _
      · exact isLE_compareOn.mp (List.rel_of_pairwise_cons h hmem)
    rw [List.orderedInsert_cons]
    split
    · rename_i hle
      obtain ⟨m, hm⟩ : ∃ m, (a :: rows).getLast? = some m := ⟨_, List.getLast?_cons⟩
      have hrm := (isLE_compareOn.mp hle).trans (hlast m hm)
      rw [List.getLast?_cons_cons, hm]
      simp only [hrm, ↓reduceIte]
    · rename_i hlt
      have htail : (a :: rows.orderedInsert (fun a b => (compareOn f a b).isLE) r).getLast? =
          (rows.orderedInsert (fun a b => (compareOn f a b).isLE) r).getLast? := by
        cases hrows : rows.orderedInsert (fun a b => (compareOn f a b).isLE) r with
        | nil =>
          have hlen := congrArg List.length hrows
          rw [List.orderedInsert_length] at hlen
          cases hlen
        | cons b l => exact List.getLast?_cons_cons
      rw [htail, ih h.of_cons]
      cases rows with
      | nil => simp only [List.getLast?_nil, List.getLast?_singleton, isLE_compareOn.not.mp hlt,
          ↓reduceIte]
      | cons b l => rw [List.getLast?_cons_cons]

/-- The last row of a table in order: before it come no larger ones, after it only smaller. -/
theorem getLast?_orderBy_eq_some {rows : List ρ} {m : ρ} :
    (orderBy (compareOn f) rows).getLast? = some m ↔ ∃ earlier later,
      rows = earlier ++ m :: later ∧ (∀ r ∈ earlier, f r ≤ f m) ∧ ∀ r ∈ later, f r < f m := by
  induction rows generalizing m with
  | nil => simp [orderBy]
  | cons x rows ih =>
    have hstep := getLast?_orderedInsert x (orderBy_pairwise (compareOn f) rows)
    change (orderBy (compareOn f) (x :: rows)).getLast? = _ at hstep
    rw [hstep]
    cases hlast : (orderBy (compareOn f) rows).getLast? with
    | none =>
      have hlen := (orderBy_perm (compareOn f) rows).length_eq
      rw [List.getLast?_eq_none_iff.mp hlast] at hlen
      obtain rfl := List.length_eq_zero_iff.mp hlen.symm
      constructor
      · rintro ⟨⟩
        exact ⟨[], [], rfl, by simp, by simp⟩
      · rintro ⟨earlier, later, he, _⟩
        cases earlier with
        | nil =>
          cases he
          rfl
        | cons r earlier => simp at he
    | some y =>
      constructor
      · intro h
        obtain ⟨earlier, later, rfl, hbefore, hafter⟩ := ih.mp hlast
        simp only at h
        split at h
        · rename_i hxy
          cases h
          exact ⟨x :: earlier, later, rfl, by simpa [hxy] using hbefore, hafter⟩
        · rename_i hyx
          cases h
          refine ⟨[], _, rfl, by simp, ?_⟩
          intro r hr
          have hry : f r ≤ f y := by
            rcases List.mem_append.mp hr with hr | hr
            · exact hbefore r hr
            · rcases List.mem_cons.mp hr with rfl | hr
              · exact le_refl _
              · exact (hafter r hr).le
          exact hry.trans_lt (not_le.mp hyx)
      · rintro ⟨earlier, later, he, hbefore, hafter⟩
        cases earlier with
        | nil =>
          cases he
          have hmem : y ∈ rows := (mem_orderBy _).mp (List.mem_of_getLast? hlast)
          simp only [not_le.mpr (hafter y hmem), ↓reduceIte]
        | cons z earlier =>
          cases he
          have hm := ih.mpr ⟨earlier, later, rfl,
            fun r hr => hbefore r (List.mem_cons_of_mem _ hr), hafter⟩
          rw [hm] at hlast
          cases hlast
          exact if_pos (hbefore x List.mem_cons_self)

end Last

end Seance.Lib
