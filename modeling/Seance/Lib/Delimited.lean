import Mathlib.Data.List.Basic
import Mathlib.Data.List.Infix

namespace Seance.Lib

variable {α : Type} [DecidableEq α]

/-- What stands before the first marker, and what is left behind it. -/
def readUntil (marker : List α) : List α → Option (List α × List α)
  | [] => none
  | a :: rest =>
    if marker <+: a :: rest then some ([], (a :: rest).drop marker.length)
    else (readUntil marker rest).map (fun found => (a :: found.1, found.2))

/-- A frame: what stands between an opening mark and the first closing one. -/
def readFrame (opening marker : List α) (input : List α) : Option (List α × List α) :=
  if opening <+: input then readUntil marker (input.drop opening.length) else none

/-- A marker that cannot overlap itself: its first symbol stands nowhere else in it. -/
structure Marker (marker : List α) : Prop where
  apart : ∃ first rest, marker = first :: rest ∧ first ∉ rest

section Markers

variable {marker payload rest : List α}

omit [DecidableEq α] in
theorem Marker.ne_nil (h : Marker marker) : marker ≠ [] := by
  obtain ⟨first, tail, rfl, _⟩ := h.apart
  exact List.cons_ne_nil first tail

omit [DecidableEq α] in
/-- A marker found before the payload is over lies within the payload. -/
theorem Marker.within (h : Marker marker) (hne : payload ≠ [])
    (hfound : marker <+: payload ++ (marker ++ rest)) : marker <+: payload := by
  rcases Nat.le_total marker.length payload.length with hle | hle
  · exact List.prefix_of_prefix_length_le hfound (List.prefix_append _ _) hle
  · -- otherwise the payload is where the marker begins, and the marker goes on with itself
    have hpayload : payload <+: marker :=
      List.prefix_of_prefix_length_le (List.prefix_append _ _) hfound hle
    obtain ⟨more, hmore⟩ := hpayload
    cases more with
    | nil =>
      rw [← hmore, List.append_nil]
    | cons c more =>
      obtain ⟨first, tail, hmarker, hfirst⟩ := h.apart
      have hagain : c :: more <+: marker ++ rest := by
        rw [← hmore, List.append_assoc] at hfound
        rw [← hmore]
        simpa using (List.prefix_append_right_inj payload).mp hfound
      have hc : c = first := by
        rw [hmarker, List.cons_append] at hagain
        exact (List.cons_prefix_cons.mp hagain).1
      have htail : c ∈ tail := by
        cases payload with
        | nil => exact absurd rfl hne
        | cons p ps =>
          rw [hmarker, List.cons_append, List.cons.injEq] at hmore
          rw [← hmore.2]
          exact List.mem_append_right ps List.mem_cons_self
      exact absurd (hc ▸ htail) hfirst

theorem readUntil_marker (h : marker ≠ []) (rest : List α) :
    readUntil marker (marker ++ rest) = some ([], rest) := by
  cases marker with
  | nil => exact absurd rfl h
  | cons first tail =>
    rw [List.cons_append, readUntil, if_pos]
    · rw [← List.cons_append, List.drop_left]
    · exact List.prefix_append (first :: tail) rest

/-- A payload is read back, with nothing lost behind its marker, exactly if it has no marker. -/
theorem readUntil_iff (h : Marker marker) (payload rest : List α) :
    readUntil marker (payload ++ (marker ++ rest)) = some (payload, rest) ↔
      ¬ marker <:+: payload := by
  induction payload with
  | nil =>
    rw [List.nil_append, readUntil_marker h.ne_nil]
    simpa using h.ne_nil
  | cons a payload ih =>
    rw [List.cons_append, readUntil, List.infix_cons_iff, not_or]
    split
    · rename_i hfound
      have hwithin := h.within (List.cons_ne_nil a payload) hfound
      simp [hwithin]
    · rename_i hfound
      have hno : ¬ marker <+: a :: payload := fun hwithin =>
        hfound (hwithin.trans (List.prefix_append (a :: payload) _))
      rw [and_iff_right hno, ← ih]
      cases readUntil marker (payload ++ (marker ++ rest)) with
      | none => simp
      | some found => simp [Prod.ext_iff]

/-- Whatever the payload, some frame is read, and what it leaves behind ends with the rest. -/
theorem readUntil_some (h : Marker marker) (payload rest : List α) :
    ∃ read left, readUntil marker (payload ++ (marker ++ rest)) = some (read, left) ∧
      read ++ (marker ++ left) = payload ++ (marker ++ rest) := by
  induction payload with
  | nil => exact ⟨[], rest, readUntil_marker h.ne_nil rest, rfl⟩
  | cons a payload ih =>
    rw [List.cons_append, readUntil]
    split
    · rename_i hfound
      obtain ⟨more, hmore⟩ := hfound
      refine ⟨[], more, ?_, ?_⟩
      · rw [← hmore, List.drop_left]
      · rw [List.nil_append, hmore]
    · obtain ⟨read, left, hread, hsplit⟩ := ih
      exact ⟨a :: read, left, by rw [hread]; rfl, by rw [List.cons_append, hsplit]⟩

/-- Nothing is left behind a frame exactly if its payload has no marker. -/
theorem readUntil_all_iff (h : Marker marker) (payload : List α) :
    (∃ read, readUntil marker (payload ++ marker) = some (read, [])) ↔ ¬ marker <:+: payload := by
  have hiff := readUntil_iff h payload []
  rw [List.append_nil] at hiff
  rw [← hiff]
  constructor
  · rintro ⟨read, hread⟩
    obtain ⟨read', left, hread', hsplit⟩ := readUntil_some h payload []
    rw [List.append_nil] at hread' hsplit
    cases hread.symm.trans hread'
    rw [List.append_nil] at hsplit
    rw [hread, List.append_cancel_right hsplit]
  · exact fun hread => ⟨payload, hread⟩

theorem readFrame_opening (opening marker input : List α) :
    readFrame opening marker (opening ++ input) = readUntil marker input := by
  unfold readFrame
  rw [if_pos (List.prefix_append opening input), List.drop_left]

end Markers

variable {α : Type} {p : α → Bool} {l piece : List α} {words : List (List α)}

/-- The pieces that a list is split into are of the list and have none of the separators. -/
theorem forall_mem_splitOnP (h : piece ∈ l.splitOnP p) : ∀ a ∈ piece, a ∈ l ∧ p a = false := by
  induction l generalizing piece with
  | nil =>
    rw [List.splitOnP_nil, List.mem_singleton] at h
    rw [h]
    exact List.forall_mem_nil _
  | cons b l ih =>
    have hrest : ∀ {piece}, piece ∈ l.splitOnP p → ∀ a ∈ piece, a ∈ b :: l ∧ p a = false :=
      fun hpiece a ha => ⟨List.mem_cons_of_mem b (ih hpiece a ha).1, (ih hpiece a ha).2⟩
    rw [List.splitOnP_cons_eq_if_modifyHead] at h
    split at h
    · rcases List.mem_cons.mp h with rfl | h
      · exact List.forall_mem_nil _
      · exact hrest h
    · rename_i hb
      obtain ⟨first, rest, hsplit⟩ := List.exists_cons_of_ne_nil (List.splitOnP_ne_nil p l)
      rw [hsplit, List.modifyHead_cons] at h
      rcases List.mem_cons.mp h with rfl | h
      · refine List.forall_mem_cons.mpr
          ⟨⟨List.mem_cons_self, Bool.eq_false_iff.mpr hb⟩, hrest ?_⟩
        rw [hsplit]
        exact List.mem_cons_self
      · refine hrest ?_
        rw [hsplit]
        exact List.mem_cons_of_mem first h

/-- Words joined by a separator are what is left between the separators. -/
theorem words_joined {sep : α} (hsep : p sep = true)
    (hwords : ∀ word ∈ words, word ≠ [] ∧ ∀ a ∈ word, p a = false) :
    ((List.intercalate [sep] words).splitOnP p).filter (· ≠ []) = words := by
  induction words with
  | nil => rfl
  | cons word words ih =>
    obtain ⟨⟨hne, hword⟩, hrest⟩ := List.forall_mem_cons.mp hwords
    cases words with
    | nil =>
      rw [List.intercalate_singleton, List.splitOnP_eq_singleton hword]
      exact List.filter_cons_of_pos (by simpa using hne)
    | cons next words =>
      rw [List.intercalate_cons_cons, List.append_assoc, List.singleton_append,
        List.splitOnP_append_cons_of_forall_mem hword sep hsep,
        List.filter_cons_of_pos (by simpa using hne), ih hrest]

theorem mem_of_mem_intercalate {sep a : α} (h : a ∈ List.intercalate [sep] words) :
    a = sep ∨ ∃ word ∈ words, a ∈ word := by
  induction words with
  | nil => exact absurd h List.not_mem_nil
  | cons word words ih =>
    cases words with
    | nil =>
      rw [List.intercalate_singleton] at h
      exact .inr ⟨word, List.mem_cons_self, h⟩
    | cons next words =>
      rw [List.intercalate_cons_cons, List.append_assoc] at h
      rcases List.mem_append.mp h with h | h
      · exact .inr ⟨word, List.mem_cons_self, h⟩
      rcases List.mem_append.mp h with h | h
      · exact .inl (List.mem_singleton.mp h)
      rcases ih h with h | ⟨word', hword', h⟩
      · exact .inl h
      · exact .inr ⟨word', List.mem_cons_of_mem word hword', h⟩

end Seance.Lib
