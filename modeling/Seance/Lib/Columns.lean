import Mathlib.Order.Nat
import Seance.Lib.Clip

namespace Seance.Lib

section Touched

variable {α β : Type} (size : α → Nat) (keep : Nat → Bool)

/-- The items, laid out side by side from a column on, that have a column to keep. -/
def touched (column : Nat) : List α → List α
  | [] => []
  | a :: l =>
    let rest := touched (column + size a) l
    if (List.range (size a)).any (fun i => keep (column + i)) then a :: rest else rest

theorem weight_le_of_le {size : α → Nat} {l : List α} {n : Nat} (h : ∀ a ∈ l, size a ≤ n) :
    weight size l ≤ n * l.length := by
  induction l with
  | nil => exact Nat.zero_le _
  | cons a l ih =>
    obtain ⟨ha, hl⟩ := List.forall_mem_cons.mp h
    rw [weight_cons, List.length_cons, Nat.mul_succ, Nat.add_comm]
    exact Nat.add_le_add (ih hl) ha

theorem weight_const {size : α → Nat} {l : List α} {n : Nat}
    (h : ∀ a ∈ l, size a = n) : weight size l = n * l.length := by
  induction l with
  | nil => rfl
  | cons a l ih =>
    obtain ⟨ha, hl⟩ := List.forall_mem_cons.mp h
    rw [weight_cons, ih hl, ha, List.length_cons, Nat.mul_succ, Nat.add_comm]

theorem weight_flatMap {size : β → Nat} {f : α → List β} {l : List α} :
    weight size (l.flatMap f) = weight (fun a => weight size (f a)) l := by
  induction l with
  | nil => rfl
  | cons a l ih => rw [List.flatMap_cons, weight_append, weight_cons, ih]

theorem weight_mono {f g : α → Nat} {l : List α} (h : ∀ a ∈ l, f a ≤ g a) :
    weight f l ≤ weight g l := by
  induction l with
  | nil => exact Nat.le_refl _
  | cons a l ih =>
    obtain ⟨ha, hl⟩ := List.forall_mem_cons.mp h
    exact Nat.add_le_add ha (ih hl)

/-- Items that weigh no more than they might, and as much in all, each weigh what they might. -/
theorem eq_of_weight_eq {f g : α → Nat} {l : List α} (h : ∀ a ∈ l, f a ≤ g a)
    (heq : weight f l = weight g l) : ∀ a ∈ l, f a = g a := by
  induction l with
  | nil => exact List.forall_mem_nil _
  | cons a l ih =>
    obtain ⟨ha, hl⟩ := List.forall_mem_cons.mp h
    have hle := weight_mono hl
    rw [weight_cons, weight_cons] at heq
    exact List.forall_mem_cons.mpr ⟨by omega, ih hl (by omega)⟩

section Layout

variable {size keep} {column : Nat} {a : α} {l l' : List α}

theorem touched_cons_pos (h : ∃ col, column ≤ col ∧ col < column + size a ∧ keep col = true) :
    touched size keep column (a :: l) = a :: touched size keep (column + size a) l := by
  obtain ⟨col, hle, hlt, hkeep⟩ := h
  refine if_pos (List.any_eq_true.mpr ⟨col - column, List.mem_range.mpr (by omega), ?_⟩)
  rwa [Nat.add_sub_cancel' hle]

theorem touched_cons_neg (h : ∀ col, column ≤ col → col < column + size a → keep col = false) :
    touched size keep column (a :: l) = touched size keep (column + size a) l := by
  refine if_neg fun hany => ?_
  obtain ⟨i, hi, hkeep⟩ := List.any_eq_true.mp hany
  have hlt := List.mem_range.mp hi
  rw [h (column + i) (Nat.le_add_right _ _) (by omega)] at hkeep
  cases hkeep

theorem touched_append :
    touched size keep column (l ++ l') =
      touched size keep column l ++ touched size keep (column + weight size l) l' := by
  induction l generalizing column with
  | nil => rfl
  | cons a l ih =>
    simp only [List.cons_append, touched, ih, weight_cons, Nat.add_assoc]
    split
    · rfl
    · rfl

theorem touched_sublist : (touched size keep column l).Sublist l := by
  induction l generalizing column with
  | nil => exact List.Sublist.refl []
  | cons a l ih =>
    dsimp only [touched]
    split
    · exact ih.cons_cons a
    · exact ih.cons a

/-- Nothing is taken where no column is kept. -/
theorem touched_none
    (h : ∀ col, column ≤ col → col < column + weight size l → keep col = false) :
    touched size keep column l = [] := by
  induction l generalizing column with
  | nil => rfl
  | cons a l ih =>
    rw [weight_cons] at h
    rw [touched_cons_neg fun col hle hlt => h col hle (by omega)]
    exact ih fun col hle hlt => h col (by omega) (by omega)

/-- Everything is taken where each column is kept. -/
theorem touched_all (hsize : ∀ a ∈ l, 0 < size a)
    (h : ∀ col, column ≤ col → col < column + weight size l → keep col = true) :
    touched size keep column l = l := by
  induction l generalizing column with
  | nil => rfl
  | cons a l ih =>
    have ha := hsize a List.mem_cons_self
    rw [weight_cons] at h
    rw [touched_cons_pos ⟨column, Nat.le_refl _, by omega, h column (Nat.le_refl _) (by omega)⟩]
    rw [ih (fun b hb => hsize b (List.mem_cons_of_mem a hb)) fun col hle hlt =>
      h col (by omega) (by omega)]

/-- Only the columns of the items count. -/
theorem touched_congr {keep' : Nat → Bool}
    (h : ∀ col, column ≤ col → col < column + weight size l → keep col = keep' col) :
    touched size keep column l = touched size keep' column l := by
  induction l generalizing column with
  | nil => rfl
  | cons a l ih =>
    rw [weight_cons] at h
    have hany : (List.range (size a)).any (fun i => keep (column + i)) =
        (List.range (size a)).any (fun i => keep' (column + i)) := by
      refine Bool.eq_iff_iff.mpr ?_
      rw [List.any_eq_true, List.any_eq_true]
      refine exists_congr fun i => and_congr_right fun hi => ?_
      have hlt := List.mem_range.mp hi
      rw [h (column + i) (Nat.le_add_right _ _) (by omega)]
    dsimp only [touched]
    rw [hany, ih fun col hle hlt => h col (by omega) (by omega)]

end Layout

/-- The columns from one on and before another. -/
def within (start_col end_col col : Nat) : Bool := decide (start_col ≤ col ∧ col < end_col)

section Within

variable {size} {start_col end_col column : Nat} {l : List α}

theorem within_true {col : Nat} (hle : start_col ≤ col) (hlt : col < end_col) :
    within start_col end_col col = true :=
  decide_eq_true ⟨hle, hlt⟩

theorem within_before {col : Nat} (h : col < start_col) : within start_col end_col col = false :=
  decide_eq_false (by omega)

theorem within_after {col : Nat} (h : end_col ≤ col) : within start_col end_col col = false :=
  decide_eq_false (by omega)

variable (size) in
/-- Behind the longest prefix that fits comes an item that does not. -/
theorem cut_next (budget : Nat) (l : List α) :
    ∃ rest, l = cut size budget l ++ rest ∧
      ∀ a ∈ rest.head?, budget < weight size (cut size budget l) + size a := by
  induction l generalizing budget with
  | nil => exact ⟨[], rfl, nofun⟩
  | cons a l ih =>
    rw [cut]
    split
    · obtain ⟨rest, hl, hnext⟩ := ih (budget - size a)
      refine ⟨rest, congrArg (a :: ·) hl, fun b hb => ?_⟩
      have := hnext b hb
      rw [weight_cons]
      omega
    · rename_i hover
      refine ⟨a :: l, rfl, fun b hb => ?_⟩
      cases Option.mem_some_iff.mp hb
      rw [weight_nil]
      omega

/-- What ends by the first column of a range is not taken. -/
theorem touched_behind {before : List α} (h : weight size before ≤ start_col) :
    touched size (within start_col end_col) 0 (before ++ l) =
      touched size (within start_col end_col) (weight size before) l := by
  rw [touched_append, touched_none fun col _ hlt => within_before (by omega), List.nil_append,
    Nat.zero_add]

/-- Of items that end past the first column of a range those are taken that begin before its end. -/
theorem touched_within (hsize : ∀ a ∈ l, 0 < size a) (hlt : start_col < end_col)
    (hfirst : ∀ a ∈ l.head?, start_col < column + size a) :
    ∃ rest, l = touched size (within start_col end_col) column l ++ rest ∧
      (rest ≠ [] → end_col ≤
        column + weight size (touched size (within start_col end_col) column l)) ∧
      (touched size (within start_col end_col) column l ≠ [] →
        column + weight size (touched size (within start_col end_col) column l).dropLast <
          end_col) := by
  induction l generalizing column with
  | nil => exact ⟨[], rfl, fun h => absurd rfl h, fun h => absurd rfl h⟩
  | cons a l ih =>
    have hend : start_col < column + size a := hfirst a rfl
    obtain ⟨hpos, hmore⟩ := List.forall_mem_cons.mp hsize
    by_cases hcol : column < end_col
    · have htake : touched size (within start_col end_col) column (a :: l) =
          a :: touched size (within start_col end_col) (column + size a) l :=
        touched_cons_pos ⟨max column start_col, by omega, by omega,
          within_true (by omega) (by omega)⟩
      obtain ⟨rest, hl, hrest, hlast⟩ := ih hmore (fun b _ => Nat.lt_add_right _ hend)
      rw [htake]
      generalize touched size (within start_col end_col) (column + size a) l = taken at *
      refine ⟨rest, congrArg (a :: ·) hl, fun h => ?_, fun _ => ?_⟩
      · have := hrest h
        rw [weight_cons]
        omega
      · cases taken with
        | nil => simpa using hcol
        | cons b taken =>
          have := hlast (List.cons_ne_nil b taken)
          rw [List.dropLast_cons_of_ne_nil (List.cons_ne_nil b taken), weight_cons]
          omega
    · have hnone : touched size (within start_col end_col) column (a :: l) = [] :=
        touched_none fun col hle _ => within_after (by omega)
      rw [hnone]
      refine ⟨a :: l, rfl, fun _ => ?_, fun h => absurd rfl h⟩
      rw [weight_nil]
      omega

theorem prefix_weight_le {l l' : List α} (h : l <+: l') : weight size l ≤ weight size l' := by
  obtain ⟨rest, rfl⟩ := h
  rw [weight_append]
  exact Nat.le_add_right _ _

/-- A beginning of the items is taken as a whole exactly if its last item begins before the end of
the range. -/
theorem prefix_touched_iff (hsize : ∀ a ∈ l, 0 < size a) (hlt : start_col < end_col)
    (hfirst : ∀ a ∈ l.head?, start_col < column + size a) {part : List α} (hpart : part <+: l) :
    part <+: touched size (within start_col end_col) column l ↔
      part = [] ∨ column + weight size part.dropLast < end_col := by
  obtain ⟨rest, hl, hrest, hlast⟩ := touched_within hsize hlt hfirst
  generalize touched size (within start_col end_col) column l = taken at *
  constructor
  · rintro ⟨more, rfl⟩
    rcases List.eq_nil_or_concat part with rfl | ⟨part, a, rfl⟩
    · exact .inl rfl
    · refine .inr (Nat.lt_of_le_of_lt ?_ (hlast (by simp)))
      refine Nat.add_le_add_left (prefix_weight_le ?_) column
      rw [List.concat_eq_append, List.append_assoc, List.dropLast_concat,
        List.dropLast_append_of_ne_nil (by simp)]
      exact List.prefix_append _ _
  · rintro (rfl | hbegins)
    · exact List.nil_prefix
    rcases List.prefix_or_prefix_of_prefix hpart (hl ▸ List.prefix_append taken rest) with h | h
    · exact h
    obtain ⟨more, rfl⟩ := h
    rcases List.eq_nil_or_concat more with rfl | ⟨more, a, rfl⟩
    · rw [List.append_nil]
    · have hmore : rest ≠ [] := by
        rintro rfl
        have := hpart.length_le
        rw [hl] at this
        simp at this
      have hend := hrest hmore
      rw [List.concat_eq_append, ← List.append_assoc, List.dropLast_concat,
        weight_append] at hbegins
      omega

variable (size) in
/-- Items from a column on, with others behind them, are what a range of columns takes: the last one
begins before its end, and what comes next does not. -/
def Fills (start_col end_col column : Nat) (part rest : List α) : Prop :=
  (part = [] ∨ start_col < end_col ∧ column + weight size part.dropLast < end_col) ∧
    (rest ≠ [] → end_col ≤ max start_col (column + weight size part))

theorem touched_eq_iff (hsize : ∀ a ∈ l, 0 < size a)
    (hfirst : ∀ a ∈ l.head?, start_col < column + size a) {part : List α} :
    touched size (within start_col end_col) column l = part ↔
      ∃ rest, l = part ++ rest ∧ Fills size start_col end_col column part rest := by
  rcases Nat.lt_or_ge start_col end_col with hlt | hge
  · obtain ⟨rest, hl, hrest, hlast⟩ := touched_within hsize hlt hfirst
    constructor
    · rintro rfl
      refine ⟨rest, hl, ?_, fun h => (hrest h).trans (Nat.le_max_right _ _)⟩
      exact (eq_or_ne _ []).imp id fun h => ⟨hlt, hlast h⟩
    · rintro ⟨rest', hl', hbegins, hends⟩
      obtain ⟨more, hmore⟩ := (prefix_touched_iff hsize hlt hfirst ⟨rest', hl'.symm⟩).mpr
        (hbegins.imp id And.right)
      rw [← hmore] at hl hlast ⊢
      rcases List.eq_nil_or_concat more with rfl | ⟨more, a, rfl⟩
      · exact List.append_nil part
      -- more is taken only where the part does not reach the end of the range
      · have hrest' : rest' ≠ [] := by
          rintro rfl
          have hlength := congrArg List.length (hl.symm.trans hl')
          simp at hlength
        have hend := hends hrest'
        have hlast := hlast (by simp)
        rw [List.concat_eq_append, ← List.append_assoc, List.dropLast_concat,
          weight_append] at hlast
        omega
  · have hnone : touched size (within start_col end_col) column l = [] :=
      touched_none fun col _ _ => decide_eq_false (by omega)
    rw [hnone]
    constructor
    · rintro rfl
      exact ⟨l, rfl, .inl rfl, fun _ => hge.trans (Nat.le_max_left _ _)⟩
    · rintro ⟨_, _, rfl | ⟨hlt, _⟩, _⟩
      · rfl
      · exact absurd hlt (Nat.not_lt.mpr hge)

end Within

end Touched

/-- Columns side by side that have one value. -/
structure Strip (α : Type) where
  start : Nat
  width : Nat
  value : α

namespace Strip

variable {α : Type}

def stop (s : Strip α) : Nat := s.start + s.width

def covers (s : Strip α) (column : Nat) : Bool := s.start ≤ column && column < s.stop

/-- The values that strips give a column. -/
def values (strips : List (Strip α)) (column : Nat) : List α :=
  (strips.filter (·.covers column)).map (·.value)

/-- One strip ends before the other begins, and has a different value where they meet. -/
def Before (a b : Strip α) : Prop := a.stop ≤ b.start ∧ (a.stop = b.start → a.value ≠ b.value)

theorem values_append (strips strips' : List (Strip α)) (c : Nat) :
    values (strips ++ strips') c = values strips c ++ values strips' c := by
  unfold values
  rw [List.filter_append, List.map_append]

theorem values_singleton (s : Strip α) (c : Nat) :
    values [s] c = if s.covers c then [s.value] else [] := by
  unfold values
  rw [List.filter_cons, List.filter_nil]
  split
  · rfl
  · rfl

end Strip

section Runs

variable {α β : Type} {column start count : Nat} {run : Option α} {s : Strip α}

/-- The run that is under way, where it has a value. -/
def closed (start count : Nat) (run : Option α) : List (Strip α) :=
  (run.map fun v => ⟨start, count, v⟩).toList

theorem values_closed (start count : Nat) (run : Option α) (c : Nat) :
    Strip.values (closed start count run) c =
      if start ≤ c ∧ c < start + count then run.toList else [] := by
  cases run with
  | none => exact (ite_self []).symm
  | some v =>
    refine (Strip.values_singleton _ c).trans (if_congr ?_ rfl rfl)
    unfold Strip.covers Strip.stop
    rw [Bool.and_eq_true, decide_eq_true_eq, decide_eq_true_eq]

theorem mem_closed (h : s ∈ closed start count run) :
    s.start = start ∧ s.width = count ∧ some s.value = run := by
  obtain ⟨v, hv, rfl⟩ := Option.map_eq_some_iff.mp (Option.mem_toList.mp h)
  exact ⟨rfl, rfl, hv.symm⟩

theorem pairwise_closed : (closed start count run).Pairwise Strip.Before := by
  cases run with
  | none => exact List.Pairwise.nil
  | some v => exact List.pairwise_singleton _ _

variable [DecidableEq α] (width : β → Nat) (value : β → Option α)

/-- The runs of items of one value, laid out from a column on, with the run under way. -/
def strips_from (column start count : Nat) (run : Option α) : List β → List (Strip α)
  | [] => closed start count run
  | b :: l =>
    if value b = run then strips_from (column + width b) start (count + width b) run l
    else closed start count run ++
      strips_from (column + width b) column (width b) (value b) l

/-- The value of the item that covers a column. -/
def value_at (column : Nat) : List β → Nat → Option α
  | [], _ => none
  | b :: l, c => if c < column + width b then value b else value_at (column + width b) l c

variable {width value} {l : List β}

/-- A column of the run under way has the value of the run, the later ones that of their item. -/
theorem values_strips_from (h : start + count = column) (c : Nat) :
    Strip.values (strips_from width value column start count run l) c =
      if c < start then []
      else if c < column then run.toList
      else (value_at width value column l c).toList := by
  induction l generalizing column start count run with
  | nil =>
    rw [strips_from, values_closed, h]
    by_cases hstart : c < start
    · rw [if_pos hstart, if_neg (by omega)]
    · rw [if_neg hstart]
      by_cases hcolumn : c < column
      · rw [if_pos hcolumn, if_pos (by omega)]
      · rw [if_neg hcolumn, if_neg (by omega)]
        rfl
  | cons b l ih =>
    rw [strips_from, value_at]
    by_cases heq : value b = run
    · rw [if_pos heq, ih (by omega), heq]
      by_cases hcolumn : c < column
      · rw [if_pos hcolumn, if_pos (show c < column + width b by omega)]
      · rw [if_neg (show ¬ c < start by omega), if_neg (show ¬ c < start by omega),
          if_neg hcolumn]
        split
        · rfl
        · rfl
    · rw [if_neg heq, Strip.values_append, values_closed, ih rfl, h]
      by_cases hcolumn : c < column
      · rw [if_pos hcolumn, if_pos hcolumn, List.append_nil]
        by_cases hstart : c < start
        · rw [if_pos hstart, if_neg (by omega)]
        · rw [if_neg hstart, if_pos (by omega)]
      · rw [if_neg hcolumn, if_neg hcolumn, if_neg (show ¬ (start ≤ c ∧ c < column) by omega),
          if_neg (show ¬ c < start by omega), List.nil_append]
        split
        · rfl
        · rfl

/-- No strip begins before the run under way, and one that begins with it is the run. -/
theorem start_le_of_mem (hwidth : ∀ b ∈ l, 0 < width b) (hcount : 0 < count)
    (h : start + count = column) (hs : s ∈ strips_from width value column start count run l) :
    start ≤ s.start ∧ (s.start = start → some s.value = run) := by
  induction l generalizing column start count run with
  | nil =>
    obtain ⟨hstart, _, hvalue⟩ := mem_closed hs
    exact ⟨Nat.le_of_eq hstart.symm, fun _ => hvalue⟩
  | cons b l ih =>
    obtain ⟨hpos, hrest⟩ := List.forall_mem_cons.mp hwidth
    rw [strips_from] at hs
    split at hs
    · exact ih hrest (by omega) (by omega) hs
    · rcases List.mem_append.mp hs with hclosed | hlater
      · obtain ⟨hstart, _, hvalue⟩ := mem_closed hclosed
        exact ⟨Nat.le_of_eq hstart.symm, fun _ => hvalue⟩
      · have hle := (ih hrest hpos rfl hlater).1
        exact ⟨by omega, fun heq => by omega⟩

theorem width_pos_of_mem (hwidth : ∀ b ∈ l, 0 < width b) (hcount : ∀ v, run = some v → 0 < count)
    (hs : s ∈ strips_from width value column start count run l) : 0 < s.width := by
  induction l generalizing column start count run with
  | nil =>
    obtain ⟨_, hsize, hvalue⟩ := mem_closed hs
    exact hsize ▸ hcount _ hvalue.symm
  | cons b l ih =>
    obtain ⟨hpos, hrest⟩ := List.forall_mem_cons.mp hwidth
    rw [strips_from] at hs
    split at hs
    · exact ih hrest (fun _ _ => by omega) hs
    · rcases List.mem_append.mp hs with hclosed | hlater
      · obtain ⟨_, hsize, hvalue⟩ := mem_closed hclosed
        exact hsize ▸ hcount _ hvalue.symm
      · exact ih hrest (fun _ _ => hpos) hlater

/-- The strips come in order, and none can be joined to the next. -/
theorem pairwise_strips_from (hwidth : ∀ b ∈ l, 0 < width b) (h : start + count = column) :
    (strips_from width value column start count run l).Pairwise Strip.Before := by
  induction l generalizing column start count run with
  | nil => exact pairwise_closed
  | cons b l ih =>
    obtain ⟨hpos, hrest⟩ := List.forall_mem_cons.mp hwidth
    rw [strips_from]
    split
    · exact ih hrest (by omega)
    · rename_i hne
      refine List.pairwise_append.mpr ⟨pairwise_closed, ih hrest rfl, fun a ha b hb => ?_⟩
      obtain ⟨hstart, hsize, hvalue⟩ := mem_closed ha
      obtain ⟨hle, hsame⟩ := start_le_of_mem hrest hpos rfl hb
      have hstop : a.stop = column := by
        unfold Strip.stop
        omega
      refine ⟨by omega, fun heq hvalues => hne ?_⟩
      rw [← hsame (by omega), ← hvalues, hvalue]

end Runs

end Seance.Lib
