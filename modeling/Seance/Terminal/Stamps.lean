import Seance.Terminal.Writes

namespace Seance.Terminal
open Lib Relation

theorem le_saturating_inc {n : Nat} (h : n ≤ 2 ^ 64 - 1) : n ≤ saturating_inc n := by
  unfold saturating_inc
  omega

theorem saturating_inc_le (n : Nat) : saturating_inc n ≤ 2 ^ 64 - 1 := Nat.min_le_right _ _

theorem saturating_inc_mono {n m : Nat} (h : n ≤ m) : saturating_inc n ≤ saturating_inc m := by
  unfold saturating_inc
  omega

theorem lt_saturating_inc {n : Nat} (h : n < 2 ^ 64 - 1) : n < saturating_inc n := by
  unfold saturating_inc
  omega

namespace ViewportCache

/-- Every row has a number, and none is above the counters. -/
structure Numbered (c : ViewportCache) : Prop where
  length : c.row_revisions.length = c.rows.length
  bounded : ∀ revision ∈ c.row_revisions, revision ≤ c.next_row_revision
  next : c.next_row_revision ≤ 2 ^ 64 - 1
  viewport : c.viewport_revision ≤ 2 ^ 64 - 1

/-- The rows of `c'` are those of `c` where they keep their number; the others have a number taken
since. -/
structure Renumbered (c c' : ViewportCache) : Prop where
  next : c.next_row_revision ≤ c'.next_row_revision
  viewport : c.viewport_revision ≤ c'.viewport_revision
  rows : ∀ (i revision : Nat), c'.row_revisions[i]? = some revision →
    c.row_revisions[i]? = some revision ∧ c'.rows[i]? = c.rows[i]? ∨
      saturating_inc c.next_row_revision ≤ revision

namespace Renumbered

variable {c c' c'' : ViewportCache}

theorem refl (c : ViewportCache) : Renumbered c c := ⟨Nat.le_refl _, Nat.le_refl _,
  fun _ _ h => Or.inl ⟨h, rfl⟩⟩

theorem trans (h : Renumbered c c') (h' : Renumbered c' c'') : Renumbered c c'' where
  next := h.next.trans h'.next
  viewport := h.viewport.trans h'.viewport
  rows := by
    intro i revision hi
    rcases h'.rows i revision hi with ⟨hi', hrow⟩ | hnew
    · rcases h.rows i revision hi' with ⟨hi'', hrow'⟩ | hnew
      · exact Or.inl ⟨hi'', hrow.trans hrow'⟩
      · exact Or.inr hnew
    · exact Or.inr ((saturating_inc_mono h.next).trans hnew)

end Renumbered

variable {c : ViewportCache}

/-- A step that writes no row. -/
theorem Numbered.same_rows (h : Numbered c) {c' : ViewportCache} (hrows : c'.rows = c.rows)
    (hrevisions : c'.row_revisions = c.row_revisions)
    (hnext : c'.next_row_revision = c.next_row_revision)
    (hle : c.viewport_revision ≤ c'.viewport_revision)
    (hmax : c'.viewport_revision ≤ 2 ^ 64 - 1) : Renumbered c c' ∧ Numbered c' := by
  refine ⟨⟨hnext.ge, hle, ?_⟩, ⟨?_, ?_, ?_, hmax⟩⟩
  · intro i revision hi
    rw [hrevisions] at hi
    rw [hrows]
    exact Or.inl ⟨hi, rfl⟩
  · rw [hrows, hrevisions]
    exact h.length
  · rw [hrevisions, hnext]
    exact h.bounded
  · rw [hnext]
    exact h.next

theorem Numbered.push_row (h : Numbered c) (row : TerminalRow) :
    Renumbered c (c.push_row row) ∧ Numbered (c.push_row row) := by
  have hle := le_saturating_inc h.next
  have hrevisions : (c.push_row row).row_revisions =
      c.row_revisions ++ [saturating_inc c.next_row_revision] := rfl
  have hrows : (c.push_row row).rows = c.rows ++ [row] := rfl
  refine ⟨⟨hle, Nat.le_refl _, ?_⟩, ⟨?_, ?_, saturating_inc_le _, h.viewport⟩⟩
  · intro i revision hi
    rw [hrevisions] at hi
    rcases Nat.lt_or_ge i c.row_revisions.length with hlt | hge
    · rw [List.getElem?_append_left hlt] at hi
      rw [hrows, List.getElem?_append_left (h.length ▸ hlt)]
      exact Or.inl ⟨hi, rfl⟩
    · rw [List.getElem?_append_right hge] at hi
      have hmem := List.mem_of_getElem? hi
      rw [List.mem_singleton.mp hmem]
      exact Or.inr (Nat.le_refl _)
  · rw [hrevisions, hrows, List.length_append, List.length_append, h.length]
    rfl
  · intro revision hmem
    rw [hrevisions] at hmem
    rcases List.mem_append.mp hmem with hold | hnew
    · exact (h.bounded revision hold).trans hle
    · rw [List.mem_singleton.mp hnew]
      exact Nat.le_refl _

theorem Numbered.foldl_push_row (h : Numbered c) (rows : List TerminalRow) :
    Renumbered c (rows.foldl (fun c row => c.push_row row) c) ∧
      Numbered (rows.foldl (fun c row => c.push_row row) c) := by
  induction rows generalizing c with
  | nil => exact ⟨.refl c, h⟩
  | cons row rows ih =>
    obtain ⟨hpush, hnumbered⟩ := h.push_row row
    obtain ⟨hrest, hall⟩ := ih hnumbered
    exact ⟨hpush.trans hrest, hall⟩

theorem Numbered.grow (h : Numbered c) (missing : Nat) :
    Renumbered c (c.grow missing) ∧ Numbered (c.grow missing) := by
  induction missing generalizing c with
  | zero => exact ⟨.refl c, h⟩
  | succ missing ih =>
    obtain ⟨hpush, hnumbered⟩ := h.push_row {}
    obtain ⟨hrest, hall⟩ := ih hnumbered
    exact ⟨hpush.trans hrest, hall⟩

theorem Numbered.replace_row (h : Numbered c) (index : Nat) (row : TerminalRow) :
    Renumbered c (c.replace_row index row) ∧ Numbered (c.replace_row index row) := by
  obtain ⟨hgrow, hnumbered⟩ := h.grow (index + 1 - c.rows.length)
  generalize hg : c.grow (index + 1 - c.rows.length) = g at hgrow hnumbered
  have hle := le_saturating_inc hnumbered.next
  have hrows : (c.replace_row index row).rows = g.rows.set index row := by
    rw [← hg]
    rfl
  have hrevisions : (c.replace_row index row).row_revisions =
      g.row_revisions.set index (saturating_inc g.next_row_revision) := by
    rw [← hg]
    rfl
  have hnext : (c.replace_row index row).next_row_revision =
      saturating_inc g.next_row_revision := by
    rw [← hg]
    rfl
  have hviewport : (c.replace_row index row).viewport_revision = g.viewport_revision := by
    rw [← hg]
    rfl
  have hset : Renumbered g (c.replace_row index row) := by
    refine ⟨hnext ▸ hle, hviewport.ge, ?_⟩
    intro i revision hi
    rw [hrevisions, List.getElem?_set] at hi
    rw [hrows, List.getElem?_set]
    split at hi
    · split at hi
      · cases hi
        exact Or.inr (Nat.le_refl _)
      · cases hi
    · rename_i hne
      rw [if_neg hne]
      exact Or.inl ⟨hi, rfl⟩
  refine ⟨hgrow.trans hset, ⟨?_, ?_, hnext ▸ saturating_inc_le _, hviewport ▸ hnumbered.viewport⟩⟩
  · rw [hrows, hrevisions, List.length_set, List.length_set]
    exact hnumbered.length
  · intro revision hmem
    rw [hrevisions] at hmem
    rw [hnext]
    rcases List.mem_or_eq_of_mem_set hmem with hold | hnew
    · exact (hnumbered.bounded revision hold).trans hle
    · rw [hnew]

theorem Numbered.reset_rows (h : Numbered c) (rows : List TerminalRow) :
    Renumbered c (c.reset_rows rows) ∧ Numbered (c.reset_rows rows) := by
  have hempty : Numbered { c with rows := [], row_revisions := [] } :=
    ⟨rfl, nofun, h.next, h.viewport⟩
  obtain ⟨hpush, hnumbered⟩ := hempty.foldl_push_row rows
  have hle := le_saturating_inc hnumbered.viewport
  refine ⟨⟨hpush.next, hpush.viewport.trans hle, ?_⟩,
    ⟨hnumbered.length, hnumbered.bounded, hnumbered.next, saturating_inc_le _⟩⟩
  intro i revision hi
  rcases hpush.rows i revision hi with ⟨hold, _⟩ | hnew
  · cases hold
  · exact Or.inr hnew

theorem reset_rows_viewport_revision (c : ViewportCache) (rows : List TerminalRow) :
    (c.reset_rows rows).viewport_revision = saturating_inc c.viewport_revision := by
  have hpush (rows : List TerminalRow) (c : ViewportCache) :
      (rows.foldl (fun c row => c.push_row row) c).viewport_revision = c.viewport_revision := by
    induction rows generalizing c with
    | nil => rfl
    | cons row rows ih => exact ih (c.push_row row)
  exact congrArg saturating_inc (hpush rows _)

end ViewportCache

/-- Every write of a refresh keeps the rows and their numbers together. -/
theorem CacheWrite.renumbered {c c' : ViewportCache} (hwrite : CacheWrite c c')
    (h : c.Numbered) : c.Renumbered c' ∧ c'.Numbered := by
  cases hwrite with
  | replace_row index row => exact h.replace_row index row
  | reset_rows rows => exact h.reset_rows rows
  | set_cursor cursor =>
    unfold ViewportCache.set_cursor
    split <;> exact h.same_rows rfl rfl rfl (Nat.le_refl _) h.viewport
  | set_scrollbar scrollbar =>
    unfold ViewportCache.set_scrollbar
    split <;> exact h.same_rows rfl rfl rfl (Nat.le_refl _) h.viewport
  | bump_viewport_revision =>
    exact h.same_rows rfl rfl rfl (le_saturating_inc h.viewport) (saturating_inc_le _)
  | settle active_screen =>
    cases active_screen with
    | primary =>
      change c.Renumbered (if c.at_bottom then c.refresh_stable_preview else c) ∧
        (if c.at_bottom then c.refresh_stable_preview else c).Numbered
      split <;> exact h.same_rows rfl rfl rfl (Nat.le_refl _) h.viewport
    | alternate => exact h.same_rows rfl rfl rfl (Nat.le_refl _) h.viewport

theorem Writes.renumbered {T R : Type} {e e' : TerminalEmulator T R} (hwrites : Writes e e')
    (h : e.viewport_cache.Numbered) :
    e.viewport_cache.Renumbered e'.viewport_cache ∧ e'.viewport_cache.Numbered := by
  induction hwrites with
  | refl => exact ⟨.refl _, h⟩
  | tail _ hwrite ih =>
    obtain ⟨hbefore, hnumbered⟩ := ih
    cases hwrite with
    | cache hcache =>
      obtain ⟨hafter, hnext⟩ := hcache.renumbered hnumbered
      exact ⟨hbefore.trans hafter, hnext⟩
    | frame _ => exact ⟨hbefore, hnumbered⟩

end Seance.Terminal
