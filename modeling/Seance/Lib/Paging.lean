import Mathlib.Data.List.Infix
import Mathlib.Order.Lattice

namespace Seance.Lib

/-- The part of a log that lies beyond a cursor. -/
def beyond {ρ κ : Type} [LinearOrder κ] (num : ρ → κ) (log : List ρ) (cursor : κ) : List ρ :=
  log.filter (fun r => cursor < num r)

/-- One page of it, and the cursor that the page leads to. -/
def page {ρ κ : Type} [LinearOrder κ] (num : ρ → κ) (log : List ρ) (cursor : κ) (limit : Nat) :
    List ρ :=
  (beyond num log cursor).take limit

def advanced {ρ κ : Type} (num : ρ → κ) (rows : List ρ) (cursor : κ) : κ :=
  (rows.getLast?.map num).getD cursor

/-- What a reader has got who asks for page after page of a log that is being written, each
time from the cursor the last page left. -/
inductive Pages {ρ κ : Type} [LinearOrder κ] (num : ρ → κ) (log : List ρ) (start : κ) :
    List ρ → κ → Prop where
  | none : Pages num log start [] start
  | more {got : List ρ} {cursor : κ} {earlier : List ρ} {limit : Nat}
      (h : Pages num log start got cursor) (hlog : earlier <+: log) :
      Pages num log start (got ++ page num earlier cursor limit)
        (advanced num (page num earlier cursor limit) cursor)

section Pages

variable {ρ κ : Type} [LinearOrder κ] {num : ρ → κ} {log earlier : List ρ} {cursor : κ}
variable {limit : Nat}

theorem mem_beyond {r : ρ} : r ∈ beyond num log cursor ↔ r ∈ log ∧ cursor < num r := by
  simp [beyond]

theorem map_beyond : (beyond num log cursor).map num =
    (log.map num).filter (fun k => cursor < k) := by
  rw [List.filter_map]
  rfl

theorem page_eq_nil (hlimit : 0 < limit) :
    page num log cursor limit = [] ↔ beyond num log cursor = [] := by
  rw [page, List.take_eq_nil_iff, or_iff_right (Nat.ne_of_gt hlimit)]

/-- In a sorted log, what lies beyond a row that is beyond the cursor is what follows it. -/
theorem beyond_eq_of_split {front back : List ρ} {r : ρ}
    (hsorted : log.Pairwise (fun a b => num a < num b))
    (h : beyond num log cursor = front ++ r :: back) : beyond num log (num r) = back := by
  have hr : cursor < num r := (mem_beyond.mp (h ▸ List.mem_append_right _ List.mem_cons_self)).2
  have hpart : beyond num log (num r) = beyond num (beyond num log cursor) (num r) := by
    unfold beyond
    rw [List.filter_filter]
    refine List.filter_congr ?_
    intro q _
    have hiff : num r < num q ↔ num r < num q ∧ cursor < num q :=
      ⟨fun hq => ⟨hq, lt_trans hr hq⟩, And.left⟩
    rw [← Bool.decide_and]
    exact decide_eq_decide.mpr hiff
  have hsub : (beyond num log cursor).Pairwise (fun a b => num a < num b) :=
    hsorted.sublist List.filter_sublist
  rw [h, List.pairwise_append, List.pairwise_cons] at hsub
  rw [hpart, h]
  unfold beyond
  rw [List.filter_append, List.filter_cons_of_neg (by simp),
    List.filter_eq_nil_iff.mpr (fun q hq => by
      simpa using le_of_lt (hsub.2.2 q hq r List.mem_cons_self)),
    List.filter_eq_self.mpr (fun q hq => by simpa using hsub.2.1.1 q hq), List.nil_append]

/-- A page is the front of what lies beyond the cursor; what lies beyond the new cursor is
the rest, also once the log has grown. -/
theorem beyond_eq_page (hsorted : log.Pairwise (fun a b => num a < num b))
    (hlog : earlier <+: log) : beyond num log cursor = page num earlier cursor limit ++
      beyond num log (advanced num (page num earlier cursor limit) cursor) := by
  obtain ⟨later, rfl⟩ := hlog
  have hwhole : beyond num (earlier ++ later) cursor = page num earlier cursor limit ++
      ((beyond num earlier cursor).drop limit ++ beyond num later cursor) := by
    rw [page, ← List.append_assoc, List.take_append_drop]
    exact List.filter_append _ _
  rcases List.eq_nil_or_concat' (page num earlier cursor limit) with hnil | ⟨front, r, hpage⟩
  · rw [hnil]
    rfl
  · have hadvanced : advanced num (page num earlier cursor limit) cursor = num r := by
      rw [hpage, advanced, List.getLast?_concat]
      rfl
    rw [hadvanced]
    rw [hpage, List.append_assoc, List.singleton_append] at hwhole
    rw [beyond_eq_of_split hsorted hwhole, hwhole, hpage, List.append_assoc,
      List.singleton_append]

variable {start : κ} {got : List ρ}

theorem Pages.beyond_eq (h : Pages num log start got cursor)
    (hsorted : log.Pairwise (fun a b => num a < num b)) :
    beyond num log start = got ++ beyond num log cursor := by
  induction h with
  | none => rfl
  | more _ hlog ih => rw [ih, beyond_eq_page hsorted hlog, List.append_assoc]

/-- When nothing was beyond the cursor at some time, the reader has all there was then. -/
theorem Pages.complete (h : Pages num log start got cursor)
    (hsorted : log.Pairwise (fun a b => num a < num b)) (hlog : earlier <+: log)
    (hempty : beyond num earlier cursor = []) {r : ρ} (hr : r ∈ beyond num earlier start) :
    r ∈ got := by
  obtain ⟨hmem, hlt⟩ := mem_beyond.mp hr
  have hall : r ∈ beyond num log start := mem_beyond.mpr ⟨hlog.subset hmem, hlt⟩
  rw [h.beyond_eq hsorted, List.mem_append] at hall
  rcases hall with hgot | hrest
  · exact hgot
  · have hcur : r ∈ beyond num earlier cursor := mem_beyond.mpr ⟨hmem, (mem_beyond.mp hrest).2⟩
    rw [hempty] at hcur
    cases hcur

end Pages

end Seance.Lib
