import Seance.Lib.Register

namespace Seance.Lib

/-- Versions of keyed rows, stamped by their author's clock. `le` ranks them; `beats`
decides which replace a stored one. It need not be an order, but it keeps only what
ranks as high, and a later stamp always wins. -/
structure Versioning (κ ν : Type) where
  key : ν → κ
  stamp : ν → Nat
  le : ν → ν → Prop
  beats : ν → ν → Bool
  refl : ∀ v, le v v
  le_of_stamp : ∀ v e, stamp v < stamp e → le v e
  le_of_kept : ∀ v e, beats v e = false → le v e
  irrefl : ∀ v, beats v v = false
  later : ∀ v e, stamp e < stamp v → beats v e = true

/-- One copy of the rows together with its clock. -/
@[ext] structure Replica (κ ν : Type) where
  clock : Nat
  row : κ → Option ν

namespace Replica

variable {κ ν : Type} (V : Versioning κ ν)

/-- No row carries a stamp above the clock. -/
def Bounded (s : Replica κ ν) : Prop := ∀ k v, s.row k = some v → V.stamp v ≤ s.clock

/-- A row of `s` stamped at or below the mark is also in `t`, unless `t` has
something newer than the mark in its place. -/
def Shares (mark : Nat) (s t : Replica κ ν) : Prop :=
  ∀ k v, s.row k = some v → V.stamp v ≤ mark →
    ∃ u, t.row k = some u ∧ (u = v ∨ mark < V.stamp u)

/-- Everything `s` holds up to `t`'s clock has reached `t`. -/
structure Follows (s t : Replica κ ν) : Prop where
  clock : t.clock ≤ s.clock
  row : ∀ k v, s.row k = some v → V.stamp v ≤ t.clock → t.row k = some v

/-- Rows of one key that neither beats are one row. -/
def Coherent (s t : Replica κ ν) : Prop :=
  ∀ k a b, s.row k = some a → t.row k = some b →
    V.beats a b = false → V.beats b a = false → a = b

/-- `t` holds a version that ranks at least as high as the given one. -/
def Holds (t : Replica κ ν) (k : κ) (v : ν) : Prop :=
  ∃ u, t.row k = some u ∧ V.le v u

/-- `t` takes over what `s` has stamped above `start`. -/
def pull (s t : Replica κ ν) (start : Nat) : Replica κ ν where
  clock := max t.clock s.clock
  row k :=
    match s.row k with
    | some v => if start < V.stamp v then accept V.beats (t.row k) v else t.row k
    | none => t.row k

/-- Local work: the clock moves by at most one, and at most one row is written,
stamped above the old clock. -/
def Edited [DecidableEq κ] (s t : Replica κ ν) : Prop :=
  s.clock ≤ t.clock ∧ t.clock ≤ s.clock + 1 ∧
    (t.row = s.row ∨ ∃ v, s.clock < V.stamp v ∧ V.stamp v ≤ t.clock ∧
      t.row = Function.update s.row (V.key v) (some v))

variable {V} {s s' t : Replica κ ν} {mark start : Nat}

section Pull

variable {k : κ} {v : ν}

theorem pull_offer (hv : s.row k = some v) (h : start < V.stamp v) :
    (pull V s t start).row k = accept V.beats (t.row k) v := by
  unfold pull
  simp only [hv, if_pos h]

/-- A row at or below the start is left as it was. -/
theorem pull_below (hv : s.row k = some v) (h : V.stamp v ≤ start) :
    (pull V s t start).row k = t.row k := by
  unfold pull
  simp only [hv, if_neg (Nat.not_lt.mpr h)]

theorem pull_absent (hv : s.row k = none) : (pull V s t start).row k = t.row k := by
  unfold pull
  simp only [hv]

/-- A pull offers each register the source's row, if it is stamped above the start. -/
theorem pull_row (V : Versioning κ ν) (s t : Replica κ ν) (start : Nat) (k : κ) :
    (pull V s t start).row k = settle V.beats (t.row k)
      ((s.row k).filter (fun v => start < V.stamp v)).toList := by
  cases hv : s.row k with
  | none => rw [pull_absent hv, Option.filter_none, Option.toList_none, settle_nil]
  | some v =>
    by_cases h : start < V.stamp v
    · rw [pull_offer hv h, Option.filter_some, if_pos (decide_eq_true h), Option.toList_some,
        settle_cons, settle_nil]
    · rw [pull_below hv (Nat.le_of_not_lt h), Option.filter_some, if_neg (by simpa using h),
        Option.toList_none, settle_nil]

/-- A pulled row is the old one or the source's, and the source's comes only from
above the start. -/
theorem pull_cases (V : Versioning κ ν) (s t : Replica κ ν) (start : Nat) (k : κ) :
    (pull V s t start).row k = t.row k ∨
      ∃ v, (pull V s t start).row k = some v ∧ s.row k = some v ∧ start < V.stamp v := by
  cases hv : s.row k with
  | none => exact .inl (pull_absent hv)
  | some v =>
    by_cases h : start < V.stamp v
    · rw [pull_offer hv h]
      cases t.row k with
      | none => exact .inr ⟨v, rfl, rfl, h⟩
      | some u =>
        simp only [accept]
        split
        · exact .inr ⟨v, rfl, rfl, h⟩
        · exact .inl rfl
    · exact .inl (pull_below hv (Nat.le_of_not_lt h))

theorem Bounded.pull (hs : Bounded V s) (ht : Bounded V t) (start : Nat) :
    Bounded V (pull V s t start) := by
  intro k u hu
  rcases pull_cases V s t start k with hold | ⟨v, hv, hsv, _⟩
  · rw [hold] at hu
    exact Nat.le_trans (ht k u hu) (Nat.le_max_left _ _)
  · rw [hu] at hv
    cases hv
    exact Nat.le_trans (hs k u hsv) (Nat.le_max_right _ _)

/-- A pull keeps the low rows shared, wherever it starts. -/
theorem Shares.pull (hst : Shares V mark s t) (hts : Shares V mark t s) (start : Nat) :
    Shares V mark s (pull V s t start) ∧ Shares V mark (Replica.pull V s t start) s := by
  constructor
  · intro k v hv hle
    rcases pull_cases V s t start k with hold | ⟨u, hu, hsu, _⟩
    · rw [hold]
      exact hst k v hv hle
    · rw [hv] at hsu
      cases hsu
      exact ⟨v, hu, .inl rfl⟩
  · intro k u hu hle
    rcases pull_cases V s t start k with hold | ⟨v, hv, hsv, _⟩
    · rw [hold] at hu
      exact hts k u hu hle
    · rw [hu] at hv
      cases hv
      exact ⟨u, hsv, .inl rfl⟩

/-- Replicas with the same rows share them below any mark. -/
theorem Shares.of_row_eq (h : s.row = t.row) : Shares V mark s t :=
  fun _ v hv _ => ⟨v, h ▸ hv, .inl rfl⟩

end Pull

section Delivery

variable {k : κ} {v : ν}

theorem Holds.of_accept (hrow : t.row k = accept V.beats (s.row k) v) : t.Holds V k v := by
  unfold Holds
  rw [hrow]
  cases s.row k with
  | none => exact ⟨v, rfl, V.refl v⟩
  | some u =>
    simp only [accept]
    split
    · exact ⟨v, rfl, V.refl v⟩
    · rename_i hbeats
      exact ⟨u, rfl, V.le_of_kept v u (Bool.not_eq_true _ ▸ hbeats)⟩

/-- Whatever is stamped above the start is delivered. -/
theorem pull_holds_later (hv : s.row k = some v) (h : start < V.stamp v) :
    (pull V s t start).Holds V k v :=
  .of_accept (pull_offer hv h)

/-- After a pull the target holds a row exactly if it was offered or held before. -/
theorem pull_holds_iff (hv : s.row k = some v) :
    (pull V s t start).Holds V k v ↔ start < V.stamp v ∨ t.Holds V k v := by
  by_cases h : start < V.stamp v
  · exact ⟨fun _ => .inl h, fun _ => pull_holds_later hv h⟩
  · have hkeep : (pull V s t start).row k = t.row k := pull_below hv (Nat.le_of_not_lt h)
    unfold Holds
    rw [hkeep]
    exact ⟨.inr, fun hor => hor.resolve_left h⟩

/-- A pull from the mark delivers everything: what lies below it is shared already. -/
theorem pull_from_mark_holds (h : Shares V mark s t) (hv : s.row k = some v) :
    (pull V s t mark).Holds V k v := by
  refine (pull_holds_iff hv).mpr ?_
  by_cases hle : V.stamp v ≤ mark
  · obtain ⟨u, hu, rfl | hlt⟩ := h k v hv hle
    · exact .inr ⟨u, hu, V.refl u⟩
    · exact .inr ⟨u, hu, V.le_of_stamp v u (by omega)⟩
  · exact .inl (Nat.lt_of_not_le hle)

/-- A follower that pulls from no later than its own clock has every row of the source. -/
theorem Follows.pull_row (h : Follows V s t) (ht : Bounded V t) (hstart : start ≤ t.clock)
    (hv : s.row k = some v) : (pull V s t start).row k = some v := by
  by_cases hle : V.stamp v ≤ t.clock
  · have hrow := h.row k v hv hle
    rcases pull_cases V s t start k with hold | ⟨u, hu, hsu, _⟩
    · exact hold.trans hrow
    · exact hu.trans (hsu ▸ hv)
  · rw [pull_offer hv (by omega)]
    cases hu : t.row k with
    | none => rfl
    | some u =>
      have hstamp := ht k u hu
      simp [accept, V.later v u (by omega)]

theorem Follows.pull (h : Follows V s t) (ht : Bounded V t) (hstart : start ≤ t.clock) :
    Follows V s (pull V s t start) where
  clock := Nat.max_le.mpr ⟨h.clock, Nat.le_refl _⟩
  row _ _ hv _ := h.pull_row ht hstart hv

/-- The source may pull back from its follower. -/
theorem Follows.pulled (h : Follows V s t) (start : Nat) :
    Follows V (Replica.pull V t s start) t where
  clock := Nat.le_trans h.clock (Nat.le_max_left _ _)
  row k v hv hle := by
    rcases pull_cases V t s start k with hold | ⟨u, hu, htu, _⟩
    · exact h.row k v (hold ▸ hv) hle
    · rw [hv] at hu
      cases hu
      exact htu

end Delivery

section Exchange

/-- Rows at or below the mark are shared, so whatever differs is offered in one of the
two pulls. -/
theorem exchange_row (hst : Shares V mark s t) (hts : Shares V mark t s)
    (hc : Coherent V s t) :
    (pull V (pull V s t mark) s mark).row = (pull V s t mark).row := by
  funext k
  cases ha : s.row k with
  | none =>
    have hkeep : (pull V s t mark).row k = t.row k := pull_absent ha
    cases hb : t.row k with
    | none =>
      rw [hb] at hkeep
      rw [pull_absent hkeep, hkeep, ha]
    | some b =>
      rw [hb] at hkeep
      have hnew : mark < V.stamp b := by
        by_contra hle
        obtain ⟨a, ha', _⟩ := hts k b hb (Nat.le_of_not_lt hle)
        rw [ha] at ha'
        cases ha'
      rw [pull_offer hkeep hnew, ha, hkeep, accept]
  | some a =>
    by_cases hlow : V.stamp a ≤ mark
    · have hkeep : (pull V s t mark).row k = t.row k := pull_below ha hlow
      obtain ⟨b, hb, rfl | hnew⟩ := hst k a ha hlow
      · rw [hb] at hkeep
        rw [pull_below hkeep hlow, ha, hkeep]
      · rw [hb] at hkeep
        rw [pull_offer hkeep hnew, ha, hkeep, accept, if_pos (V.later b a (by omega))]
    · have hoffer : (pull V s t mark).row k = accept V.beats (t.row k) a :=
        pull_offer ha (Nat.lt_of_not_le hlow)
      have hsame : (pull V s t mark).row k = some a →
          (pull V (pull V s t mark) s mark).row k = some a := by
        intro htook
        rw [pull_offer htook (Nat.lt_of_not_le hlow), ha]
        simp [accept, V.irrefl]
      cases hb : t.row k with
      | none =>
        have htook : (pull V s t mark).row k = some a := by rw [hoffer, hb, accept]
        rw [htook, hsame htook]
      | some b =>
        cases hab : V.beats a b with
        | true =>
          have htook : (pull V s t mark).row k = some a := by simp [hoffer, hb, accept, hab]
          rw [htook, hsame htook]
        | false =>
          have hkept : (pull V s t mark).row k = some b := by simp [hoffer, hb, accept, hab]
          have hnew : mark < V.stamp b := by
            by_contra hle
            have hwin := V.later a b (by omega)
            rw [hab] at hwin
            cases hwin
          rw [pull_offer hkept hnew, ha, hkept, accept]
          cases hba : V.beats b a with
          | true => rfl
          | false => simp [hc k a b ha hb hab hba]

/-- Both sides come out of an exchange with one clock. -/
theorem exchange_clock (V : Versioning κ ν) (s t : Replica κ ν) (mark : Nat) :
    (pull V (pull V s t mark) s mark).clock = (pull V s t mark).clock := by
  have hmax : (pull V (pull V s t mark) s mark).clock = max s.clock (max t.clock s.clock) := rfl
  have hmax' : (pull V s t mark).clock = max t.clock s.clock := rfl
  omega

/-- Exchange after a common mark: `t` pulls from `s`, then `s` from the result. -/
theorem exchange_eq (hst : Shares V mark s t) (hts : Shares V mark t s)
    (hc : Coherent V s t) : pull V (pull V s t mark) s mark = pull V s t mark :=
  Replica.ext (exchange_clock V s t mark) (exchange_row hst hts hc)

end Exchange

section Edits

variable [DecidableEq κ]

theorem Edited.refl (s : Replica κ ν) : Edited V s s :=
  ⟨Nat.le_refl _, Nat.le_succ _, .inl rfl⟩

theorem Edited.clock_le (h : Edited V s s') : s.clock ≤ s'.clock := h.1

/-- A row after an edit is the row before it or is stamped above the old clock. -/
theorem Edited.row_cases (h : Edited V s s') (k : κ) :
    s'.row k = s.row k ∨
      ∃ v, s'.row k = some v ∧ s.clock < V.stamp v ∧ V.stamp v ≤ s'.clock := by
  obtain ⟨_, _, hrow | ⟨v, hv, hv', hrow⟩⟩ := h
  · exact .inl (congrFun hrow k)
  · rw [hrow]
    by_cases hk : k = V.key v
    · subst hk
      exact .inr ⟨v, by simp, hv, hv'⟩
    · exact .inl (by simp [hk])

theorem Bounded.edited (hs : Bounded V s) (h : Edited V s s') : Bounded V s' := by
  intro k u hu
  rcases h.row_cases k with hold | ⟨v, hv, _, hle⟩
  · exact Nat.le_trans (hs k u (hold ▸ hu)) h.clock_le
  · rw [hu] at hv
    cases hv
    exact hle

theorem Shares.edited_left (h : Shares V mark s t) (he : Edited V s s')
    (hmark : mark ≤ s.clock) : Shares V mark s' t := by
  intro k v hv hle
  rcases he.row_cases k with hold | ⟨u, hu, hnew, _⟩
  · exact h k v (hold ▸ hv) hle
  · rw [hu] at hv
    cases hv
    omega

theorem Shares.edited_right (h : Shares V mark t s) (he : Edited V s s')
    (hmark : mark ≤ s.clock) : Shares V mark t s' := by
  intro k v hv hle
  obtain ⟨u, hu, hor⟩ := h k v hv hle
  rcases he.row_cases k with hold | ⟨u', hu', hnew, _⟩
  · exact ⟨u, hold ▸ hu, hor⟩
  · exact ⟨u', hu', .inr (by omega)⟩

theorem Follows.edited (h : Follows V s t) (he : Edited V s s') : Follows V s' t := by
  refine ⟨Nat.le_trans h.clock he.clock_le, fun k v hv hle => ?_⟩
  rcases he.row_cases k with hold | ⟨u, hu, hnew, _⟩
  · exact h.row k v (hold ▸ hv) hle
  · rw [hu] at hv
    cases hv
    have := h.clock
    omega

end Edits

end Replica

end Seance.Lib
