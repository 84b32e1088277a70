import Mathlib

namespace Seance.Lib

section Erasing

variable {α : Type}

/-- A stroke types a symbol or takes the last one back. -/
def strike (typed : List α) : Option α → List α
  | some a => typed ++ [a]
  | none => typed.dropLast

/-- What strokes leave of the symbols they type. -/
def remains (strokes : List (Option α)) : List α := strokes.foldl strike []

/-- A stroke of a call takes back what was there before the call: nothing the call typed is left. -/
def TakesBack (typed : List α) (call : List (Option α)) : Prop :=
  ∃ before after, call = before ++ none :: after ∧ remains before = [] ∧
    before.foldl strike typed ≠ []

/-- A stroke of a call takes back what the calls before it left. -/
def ReachesBack (calls : List (List (Option α))) : Prop :=
  ∃ before call after, calls = before ++ call :: after ∧ TakesBack (remains before.flatten) call

@[simp] theorem remains_nil : remains ([] : List (Option α)) = [] := rfl

theorem remains_append (strokes more : List (Option α)) :
    remains (strokes ++ more) = more.foldl strike (remains strokes) := List.foldl_append

theorem not_takesBack_nil (typed : List α) : ¬TakesBack typed [] := by
  rintro ⟨before, after, h, -⟩
  simp at h

/-- A further stroke takes something back where it finds nothing of its call but something before
it. -/
theorem takesBack_concat (typed : List α) (call : List (Option α)) (stroke : Option α) :
    TakesBack typed (call ++ [stroke]) ↔ TakesBack typed call ∨
      stroke = none ∧ remains call = [] ∧ call.foldl strike typed ≠ [] := by
  constructor
  · rintro ⟨before, after, h, hown, htyped⟩
    rcases List.eq_nil_or_concat after with rfl | ⟨rest, last, rfl⟩
    · obtain ⟨rfl, hstroke⟩ := List.append_inj' h rfl
      exact .inr ⟨(List.cons.inj hstroke).1, hown, htyped⟩
    · rw [List.concat_eq_append, ← List.cons_append, ← List.append_assoc] at h
      exact .inl ⟨before, rest, (List.append_inj' h rfl).1, hown, htyped⟩
  · rintro (⟨before, after, rfl, hown, htyped⟩ | ⟨rfl, hown, htyped⟩)
    · exact ⟨before, after ++ [stroke], by simp, hown, htyped⟩
    · exact ⟨call, [], rfl, hown, htyped⟩

/-- A call leaves a beginning of what was there before it, and behind that what it leaves itself. -/
theorem strike_call (typed : List α) (call : List (Option α)) :
    ∃ kept, kept <+: typed ∧ call.foldl strike typed = kept ++ remains call ∧
      (kept = typed ↔ ¬TakesBack typed call) := by
  induction call using List.reverseRecOn with
  | nil => exact ⟨typed, List.prefix_refl _, by simp, iff_of_true rfl (not_takesBack_nil typed)⟩
  | append_singleton call stroke ih =>
    obtain ⟨kept, hkept, hcall, hiff⟩ := ih
    rw [remains_append, List.foldl_append, hcall, takesBack_concat, hcall]
    simp only [List.foldl_cons, List.foldl_nil]
    cases stroke with
    | some a => exact ⟨kept, hkept, List.append_assoc _ _ _, by simp [hiff]⟩
    | none =>
      by_cases hown : remains call = []
      · rw [hown]
        refine ⟨kept.dropLast, (List.dropLast_prefix kept).trans hkept, by simp [strike], ?_⟩
        by_cases hnone : kept = []
        · simpa [hnone] using hiff
        · -- what is kept gets shorter than what was there
          have hshort : kept.dropLast ≠ typed := by
            intro h
            have hlength := hkept.length_le
            have hpos := List.length_pos_of_ne_nil hnone
            rw [← h, List.length_dropLast] at hlength
            omega
          simp [hshort, hnone]
      · exact ⟨kept, hkept, List.dropLast_append_of_ne_nil hown, by simp [hiff, hown]⟩

theorem not_reachesBack_nil : ¬ReachesBack ([] : List (List (Option α))) := by
  rintro ⟨before, call, after, h, -⟩
  simp at h

theorem reachesBack_concat (calls : List (List (Option α))) (call : List (Option α)) :
    ReachesBack (calls ++ [call]) ↔ ReachesBack calls ∨ TakesBack (remains calls.flatten) call := by
  constructor
  · rintro ⟨before, call', after, h, htakes⟩
    rcases List.eq_nil_or_concat after with rfl | ⟨rest, last, rfl⟩
    · obtain ⟨rfl, hcall⟩ := List.append_inj' h rfl
      rw [(List.cons.inj hcall).1]
      exact .inr htakes
    · rw [List.concat_eq_append, ← List.cons_append, ← List.append_assoc] at h
      exact .inl ⟨before, call', rest, (List.append_inj' h rfl).1, htakes⟩
  · rintro (⟨before, call', after, rfl, htakes⟩ | htakes)
    · exact ⟨before, call', after ++ [call], by simp, htakes⟩
    · exact ⟨calls, call, [], rfl, htakes⟩

/-- Calls leave together what their strokes would leave as one, exactly if none reaches back; they
never leave less. -/
theorem flatten_remains (calls : List (List (Option α))) :
    (remains calls.flatten).length ≤ (calls.map remains).flatten.length ∧
      ((calls.map remains).flatten = remains calls.flatten ↔ ¬ReachesBack calls) := by
  induction calls using List.reverseRecOn with
  | nil => exact ⟨le_rfl, iff_of_true rfl not_reachesBack_nil⟩
  | append_singleton calls call ih =>
    obtain ⟨hlength, hiff⟩ := ih
    obtain ⟨kept, hkept, hcall, hback⟩ := strike_call (remains calls.flatten) call
    have hwhole : remains (calls ++ [call]).flatten = kept ++ remains call := by
      rw [List.flatten_append, remains_append, List.flatten_singleton, hcall]
    have hparts : ((calls ++ [call]).map remains).flatten =
        (calls.map remains).flatten ++ remains call := by
      rw [List.map_append, List.flatten_append, List.map_singleton, List.flatten_singleton]
    rw [hwhole, hparts, reachesBack_concat, not_or, ← hiff, ← hback, List.append_cancel_right_eq]
    refine ⟨?_, fun h => ?_, fun h => h.1.trans h.2.symm⟩
    · have hshort := hkept.length_le
      simp only [List.length_append]
      omega
    · have hsame : kept = remains calls.flatten :=
        hkept.eq_of_length_le (by rw [← h]; exact hlength)
      exact ⟨h.trans hsame, hsame⟩

end Erasing

end Seance.Lib
