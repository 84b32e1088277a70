import Seance.Lib.Map

namespace Seance.Lib

section MaxByKey

variable {α : Type} {key : α → Nat} {a : α} {l : List α}

/-- `Iterator::max_by_key`: of several that are the greatest, the last. -/
def maxByKey (key : α → Nat) : List α → Option α
  | [] => none
  | a :: rest =>
    match maxByKey key rest with
    | none => some a
    | some b => if key b < key a then some a else some b

theorem maxByKey_mem (h : maxByKey key l = some a) : a ∈ l := by
  induction l generalizing a with
  | nil => cases h
  | cons b rest ih =>
    simp only [maxByKey] at h
    split at h
    · cases h
      exact List.mem_cons_self
    · rename_i c hc
      split at h
      · cases h
        exact List.mem_cons_self
      · cases h
        exact List.mem_cons_of_mem b (ih hc)

theorem maxByKey_le (h : maxByKey key l = some a) : ∀ b ∈ l, key b ≤ key a := by
  induction l generalizing a with
  | nil => cases h
  | cons c rest ih =>
    simp only [maxByKey] at h
    split at h
    · rename_i hnone
      cases h
      cases rest with
      | nil => simp
      | cons d rest =>
        simp only [maxByKey] at hnone
        split at hnone
        · cases hnone
        · split at hnone <;> cases hnone
    · rename_i d hd
      have hrest := ih hd
      split at h
      · rename_i hlt
        cases h
        intro b hb
        rcases List.mem_cons.mp hb with rfl | hb
        · exact Nat.le_refl _
        · exact Nat.le_of_lt (Nat.lt_of_le_of_lt (hrest b hb) hlt)
      · rename_i hle
        cases h
        intro b hb
        rcases List.mem_cons.mp hb with rfl | hb
        · exact Nat.le_of_not_lt hle
        · exact hrest b hb

theorem maxByKey_eq_none : maxByKey key l = none ↔ l = [] := by
  constructor
  · intro h
    cases l with
    | nil => rfl
    | cons a rest =>
      simp only [maxByKey] at h
      split at h
      · cases h
      · split at h <;> cases h
  · rintro rfl
    rfl

end MaxByKey

section Ranked

variable {κ : Type}

/-- The list names what has a stamp, each once and the greatest stamp first. -/
structure Ranked (stamp : κ → Option Nat) (top : Nat) (recent : List κ) : Prop where
  nodup : recent.Nodup
  mem : ∀ k, k ∈ recent ↔ (stamp k).isSome
  below : ∀ k n, stamp k = some n → n ≤ top
  falling : recent.Pairwise fun a b => ∀ m n, stamp a = some m → stamp b = some n → n < m

variable {stamp stamp' : κ → Option Nat} {top n : Nat} {recent : List κ} {k : κ}

theorem ranked_empty (top : Nat) : Ranked (fun _ : κ => none) top [] where
  nodup := List.nodup_nil
  mem := by simp
  below := nofun
  falling := .nil

theorem Ranked.raise (h : Ranked stamp top recent) (hn : top ≤ n) : Ranked stamp n recent :=
  ⟨h.nodup, h.mem, fun k m hm => Nat.le_trans (h.below k m hm) hn, h.falling⟩

variable [DecidableEq κ]

/-- Brought to the front of the list. -/
def promote (k : κ) (recent : List κ) : List κ := k :: recent.filter (· ≠ k)

/-- A stamp above all others brings its bearer to the front. -/
theorem Ranked.stamped (h : Ranked stamp top recent) (hn : top < n)
    (hstamp : ∀ q, stamp' q = if q = k then some n else stamp q) :
    Ranked stamp' n (promote k recent) := by
  have hother : ∀ q, q ≠ k → stamp' q = stamp q := fun q hq => by rw [hstamp, if_neg hq]
  have hself : stamp' k = some n := by rw [hstamp, if_pos rfl]
  refine ⟨?_, fun q => ?_, fun q m hm => ?_, ?_⟩
  · refine List.nodup_cons.mpr ⟨fun hmem => ?_, h.nodup.filter _⟩
    simpa using (List.mem_filter.mp hmem).2
  · unfold promote
    by_cases hq : q = k
    · rw [hq, hself]
      simp
    · rw [hother q hq, ← h.mem q]
      simp [hq]
  · by_cases hq : q = k
    · rw [hq, hself] at hm
      exact Nat.le_of_eq (Option.some.inj hm).symm
    · rw [hother q hq] at hm
      exact Nat.le_trans (h.below q m hm) (Nat.le_of_lt hn)
  · refine List.pairwise_cons.mpr ⟨fun q hq m i hm hi => ?_, ?_⟩
    · have hne : q ≠ k := by simpa using (List.mem_filter.mp hq).2
      rw [hself] at hm
      rw [hother q hne] at hi
      have hm := Option.some.inj hm
      have := h.below q i hi
      omega
    · refine (h.falling.sublist List.filter_sublist).imp_of_mem fun {a b} ha hb hfall m i hm hi => ?_
      have hne : a ≠ k := by simpa using (List.mem_filter.mp ha).2
      have hne' : b ≠ k := by simpa using (List.mem_filter.mp hb).2
      rw [hother a hne] at hm
      rw [hother b hne'] at hi
      exact hfall m i hm hi

theorem Ranked.forgotten (h : Ranked stamp top recent)
    (hstamp : ∀ q, stamp' q = if q = k then none else stamp q) :
    Ranked stamp' top (recent.filter (· ≠ k)) := by
  have hsome : ∀ q m, stamp' q = some m → q ≠ k ∧ stamp q = some m := by
    intro q m hm
    rw [hstamp] at hm
    split at hm
    · cases hm
    · rename_i hq
      exact ⟨hq, hm⟩
  refine ⟨h.nodup.filter _, fun q => ?_, fun q m hm => h.below q m (hsome q m hm).2, ?_⟩
  · rw [List.mem_filter, h.mem q, hstamp]
    by_cases hq : q = k
    · simp [hq]
    · simp [hq]
  · refine (h.falling.sublist List.filter_sublist).imp fun hfall m i hm hi => ?_
    exact hfall m i (hsome _ m hm).2 (hsome _ i hi).2

/-- In a map ranked by its stamps, the first of the list is the one with the greatest. -/
theorem Ranked.latest {ν : Type} {m : Map κ ν} {f : ν → Nat}
    (h : Ranked (fun k => (m.get k).map f) top recent) :
    (maxByKey (fun pair => f pair.2) m.rows).map Prod.fst = recent.head? := by
  cases hmax : maxByKey (fun pair => f pair.2) m.rows with
  | none =>
    rw [maxByKey_eq_none] at hmax
    cases recent with
    | nil => rfl
    | cons k rest =>
      have hk := (h.mem k).mp List.mem_cons_self
      have hnone : m.get k = none := by
        unfold Map.get Table.find?
        rw [hmax]
        rfl
      rw [hnone] at hk
      cases hk
  | some pair =>
    have hpair := Map.mem_rows.mp (maxByKey_mem hmax)
    have hstamp : (m.get pair.1).map f = some (f pair.2) := by rw [hpair, Option.map_some]
    have hmem : pair.1 ∈ recent := (h.mem pair.1).mpr (by rw [hstamp]; rfl)
    cases recent with
    | nil => cases hmem
    | cons k rest =>
      rcases List.mem_cons.mp hmem with hk | hrest
      · rw [Option.map_some, hk]
        rfl
      · obtain ⟨n, hn⟩ := Option.isSome_iff_exists.mp ((h.mem k).mp List.mem_cons_self)
        have hlt := (List.pairwise_cons.mp h.falling).1 pair.1 hrest n (f pair.2) hn hstamp
        obtain ⟨v, hv, rfl⟩ := Option.map_eq_some_iff.mp hn
        have hle := maxByKey_le hmax (k, v) (Map.mem_rows.mpr hv)
        exact absurd hlt (Nat.not_lt_of_le hle)

end Ranked

end Seance.Lib
