import Mathlib

namespace Seance.Lib

section Weights

variable {α : Type} (size : α → Nat)

def weight (l : List α) : Nat := (l.map size).sum

/-- The longest prefix that weighs no more than the budget. -/
def cut (budget : Nat) : List α → List α
  | [] => []
  | a :: l => if size a ≤ budget then a :: cut (budget - size a) l else []

variable {size}

@[simp] theorem weight_nil : weight size [] = 0 := rfl

@[simp] theorem weight_cons (a : α) (l : List α) : weight size (a :: l) = size a + weight size l := by
  simp [weight]

@[simp] theorem weight_append (l l' : List α) :
    weight size (l ++ l') = weight size l + weight size l' := by
  simp [weight]

theorem weight_pos (hsize : ∀ a, 0 < size a) {l : List α} (h : l ≠ []) : 0 < weight size l := by
  cases l with
  | nil => exact absurd rfl h
  | cons a l =>
    have := hsize a
    rw [weight_cons]
    omega

variable (size) in
theorem prefix_cut (budget : Nat) (l : List α) : cut size budget l <+: l := by
  induction l generalizing budget with
  | nil => exact List.prefix_refl []
  | cons a l ih =>
    unfold cut
    split
    · exact (List.prefix_cons_inj a).mpr (ih _)
    · exact List.nil_prefix

variable (size) in
theorem weight_cut_le (budget : Nat) (l : List α) : weight size (cut size budget l) ≤ budget := by
  induction l generalizing budget with
  | nil => exact Nat.zero_le _
  | cons a l ih =>
    unfold cut
    split
    · have := ih (budget - size a)
      rw [weight_cons]
      omega
    · exact Nat.zero_le _

theorem cut_of_le {budget : Nat} {l : List α} (h : weight size l ≤ budget) :
    cut size budget l = l := by
  induction l generalizing budget with
  | nil => rfl
  | cons a l ih =>
    rw [weight_cons] at h
    rw [cut, if_pos (by omega), ih (by omega)]

theorem cut_append_of_le {budget : Nat} {l : List α} (h : weight size l ≤ budget) (l' : List α) :
    cut size budget (l ++ l') = l ++ cut size (budget - weight size l) l' := by
  induction l generalizing budget with
  | nil => rfl
  | cons a l ih =>
    rw [weight_cons] at h
    rw [List.cons_append, cut, if_pos (by omega), ih (by omega), weight_cons, Nat.sub_sub]
    rfl

theorem cut_append_of_lt {budget : Nat} {l : List α} (h : budget < weight size l) (l' : List α) :
    cut size budget (l ++ l') = cut size budget l := by
  induction l generalizing budget with
  | nil => exact absurd h (Nat.not_lt_zero _)
  | cons a l ih =>
    rw [weight_cons] at h
    rw [List.cons_append, cut, cut]
    split
    · rw [ih (by omega)]
    · rfl

theorem cut_zero (hsize : ∀ a, 0 < size a) (l : List α) : cut size 0 l = [] := by
  cases l with
  | nil => rfl
  | cons a l =>
    have := hsize a
    rw [cut, if_neg (by omega)]

/-- A text that was cut for the marker leaves it its room. -/
theorem cut_marker (hsize : ∀ a, 0 < size a) (room : Nat) (marker text : List α) :
    cut size (room - weight size (cut size (room - weight size marker) text)) marker =
      cut size room marker := by
  have hcut := weight_cut_le size (room - weight size marker) text
  by_cases hfits : weight size marker ≤ room
  · rw [cut_of_le (by omega), cut_of_le hfits]
  · rw [show room - weight size marker = 0 by omega, cut_zero hsize, weight_nil, Nat.sub_zero]

end Weights

/-- What is kept of the texts added to a bounded buffer, and whether some of them was cut off. -/
@[ext] structure Clipped (α : Type) where
  kept : List α
  clipped : Bool
  deriving DecidableEq

section Clips

variable {α : Type} (size : α → Nat) (limit : Nat) (marker : List α)

namespace Clipped

/-- What the buffer can still take. -/
def room (b : Clipped α) : Nat := limit - weight size b.kept

/-- A text that fits is added. One that does not is cut, with room left for the marker, and the
buffer is closed; the marker itself is cut where there is no room for it. -/
def add (b : Clipped α) (text : List α) : Clipped α :=
  if b.clipped then b
  else if weight size text ≤ b.room size limit then ⟨b.kept ++ text, false⟩
  else
    let room := b.room size limit
    ⟨b.kept ++ cut size (room - weight size marker) text ++ cut size room marker, true⟩

/-- The texts up to the first one for which there is no room. -/
def fitting (room : Nat) : List (List α) → List α
  | [] => []
  | text :: rest =>
    if weight size text ≤ room then text ++ fitting (room - weight size text) rest else []

/-- When the texts of several additions are kept as those of one: all fits and they spell the same,
or nothing does and the cut comes at the same place. The last case is that of texts which, before
any cut, spell out the marker themselves. -/
def SameCut (room : Nat) (marker : List α) (texts : List (List α)) (whole : List α) : Prop :=
  let budget := room - weight size marker
  let before := fitting size room texts
  (texts.flatten = whole ∧ weight size whole ≤ room) ∨
    (room < weight size texts.flatten ∧ room < weight size whole ∧
      (weight size before ≤ budget ∧ cut size budget texts.flatten = cut size budget whole ∨
        budget < weight size before ∧ cut size (room - weight size before) marker = [] ∧
          before = cut size budget whole ++ cut size room marker))

variable {size limit marker} {b : Clipped α} {text : List α} {texts : List (List α)}

theorem add_clipped (h : b.clipped = true) (text : List α) : b.add size limit marker text = b := by
  rw [add, if_pos h]

theorem add_fits (hb : b.clipped = false) (h : weight size text ≤ b.room size limit) :
    b.add size limit marker text = ⟨b.kept ++ text, false⟩ := by
  rw [add, if_neg (by simp [hb]), if_pos h]

theorem add_nil (b : Clipped α) : b.add size limit marker [] = b := by
  obtain ⟨kept, clipped⟩ := b
  cases clipped with
  | true => exact add_clipped rfl []
  | false =>
    rw [add_fits rfl (Nat.zero_le _), List.append_nil]

theorem add_overflows (hb : b.clipped = false) (h : b.room size limit < weight size text) :
    b.add size limit marker text =
      ⟨b.kept ++ cut size (b.room size limit - weight size marker) text ++
        cut size (b.room size limit) marker, true⟩ := by
  rw [add, if_neg (by simp [hb]), if_neg (by omega)]

theorem foldl_clipped (h : b.clipped = true) (texts : List (List α)) :
    texts.foldl (add size limit marker) b = b := by
  induction texts with
  | nil => rfl
  | cons text rest ih => rw [List.foldl_cons, add_clipped h, ih]

variable (size limit) in
theorem room_append (b : Clipped α) (text : List α) (clipped : Bool) :
    room size limit ⟨b.kept ++ text, clipped⟩ = b.room size limit - weight size text := by
  simp only [room, weight_append, Nat.sub_sub]

theorem foldl_fits (hb : b.clipped = false) (h : weight size texts.flatten ≤ b.room size limit) :
    texts.foldl (add size limit marker) b = ⟨b.kept ++ texts.flatten, false⟩ := by
  induction texts generalizing b with
  | nil =>
    cases b
    cases hb
    simp
  | cons text rest ih =>
    rw [List.flatten_cons, weight_append] at h
    rw [List.foldl_cons, add_fits hb (by omega), ih rfl, List.append_assoc, List.flatten_cons]
    rw [room_append]
    omega

/-- Once a text has no room, the buffer holds those before it, what the cut leaves of the rest, and
what there is room for of the marker. -/
theorem foldl_overflows (hb : b.clipped = false)
    (h : b.room size limit < weight size texts.flatten) :
    ∃ room, room = b.room size limit - weight size (fitting size (b.room size limit) texts) ∧
      ∃ after, texts.flatten = fitting size (b.room size limit) texts ++ after ∧
        texts.foldl (add size limit marker) b =
          ⟨b.kept ++ fitting size (b.room size limit) texts ++
            cut size (room - weight size marker) after ++ cut size room marker, true⟩ := by
  induction texts generalizing b with
  | nil => exact absurd h (Nat.not_lt_zero _)
  | cons text rest ih =>
    rw [List.flatten_cons, weight_append] at h
    by_cases hfits : weight size text ≤ b.room size limit
    · have hroom := room_append size limit b text false
      obtain ⟨room, hleft, after, hafter, hfold⟩ :=
        @ih ⟨b.kept ++ text, false⟩ rfl (by rw [hroom]; omega)
      rw [hroom] at hleft hafter hfold
      rw [fitting, if_pos hfits]
      refine ⟨room, by rw [hleft, weight_append, Nat.sub_sub], after, ?_, ?_⟩
      · rw [List.flatten_cons, hafter, List.append_assoc]
      · rw [List.foldl_cons, add_fits hb hfits, hfold]
        simp only [List.append_assoc]
    · rw [fitting, if_neg hfits]
      refine ⟨b.room size limit, rfl, text ++ rest.flatten, rfl, ?_⟩
      rw [List.foldl_cons, add_overflows hb (by omega), foldl_clipped rfl,
        cut_append_of_lt (by omega), List.append_nil]

/-- A marker that does not repeat its first symbol is not found again at its end. -/
theorem marker_once (hmarker : ∀ a m, marker = a :: m → a ∉ m) {room room' : Nat} {first : List α}
    (hfirst : first ≠ []) (h : cut size room marker = first ++ cut size room' marker) :
    cut size room' marker = [] := by
  cases hcut : cut size room' marker with
  | nil => rfl
  | cons a rest =>
    obtain ⟨tail, htail⟩ := prefix_cut size room' marker
    obtain ⟨more, hmore⟩ := prefix_cut size room marker
    rw [hcut, List.cons_append] at htail
    obtain ⟨c, first', rfl⟩ := List.exists_cons_of_ne_nil hfirst
    rw [h, hcut, List.cons_append, List.cons_append] at hmore
    have hhead := (List.cons.inj (hmore.trans htail.symm)).1
    subst hhead
    refine absurd ?_ (hmarker c _ hmore.symm)
    simp

theorem foldl_eq_add_iff (hsize : ∀ a, 0 < size a) (hmarker : ∀ a m, marker = a :: m → a ∉ m)
    (hb : b.clipped = false) (texts : List (List α)) (whole : List α) :
    texts.foldl (add size limit marker) b = b.add size limit marker whole ↔
      SameCut size (b.room size limit) marker texts whole := by
  unfold SameCut
  by_cases htexts : weight size texts.flatten ≤ b.room size limit
  · rw [foldl_fits hb htexts]
    by_cases hwhole : weight size whole ≤ b.room size limit
    · rw [add_fits hb hwhole, mk.injEq, List.append_cancel_left_eq]
      constructor
      · exact fun h => .inl ⟨h.1, hwhole⟩
      · rintro (⟨h, _⟩ | ⟨h, _⟩)
        · exact ⟨h, rfl⟩
        · omega
    · rw [add_overflows hb (by omega)]
      refine iff_of_false (by simp) ?_
      rintro (⟨_, h⟩ | ⟨h, _⟩) <;> omega
  · obtain ⟨room, hroom, after, hafter, hfold⟩ :=
      foldl_overflows hb (Nat.lt_of_not_le htexts)
    rw [hfold]
    by_cases hwhole : weight size whole ≤ b.room size limit
    · rw [add_fits hb hwhole]
      refine iff_of_false (by simp) ?_
      rintro (⟨h, h'⟩ | ⟨_, h, _⟩)
      · rw [h] at htexts
        exact htexts h'
      · omega
    · rw [add_overflows hb (by omega), mk.injEq]
      generalize hp : fitting size (b.room size limit) texts = before at hroom hafter ⊢
      generalize b.room size limit = total at *
      have hcancel : ∀ l l' : List α, b.kept ++ before ++ l ++ l' = b.kept ++ (before ++ (l ++ l')) :=
        fun l l' => by simp only [List.append_assoc]
      rw [hcancel, List.append_assoc b.kept, List.append_cancel_left_eq]
      by_cases hearly : weight size before ≤ total - weight size marker
      · have hcut : cut size (total - weight size marker) texts.flatten =
            before ++ cut size (room - weight size marker) after := by
          rw [hafter, cut_append_of_le hearly, hroom, Nat.sub_right_comm]
        have hmark : cut size room marker = cut size total marker := by
          by_cases hfits : weight size marker ≤ total
          · rw [cut_of_le (by omega), cut_of_le hfits]
          · rw [show room = total by omega]
        rw [hmark, ← List.append_assoc, List.append_cancel_right_eq, ← hcut]
        constructor
        · exact fun h => .inr ⟨by omega, by omega, .inl ⟨hearly, h.1⟩⟩
        · rintro (⟨h, h'⟩ | ⟨_, _, ⟨_, h⟩ | ⟨h, _⟩⟩)
          · omega
          · exact ⟨h, rfl⟩
          · omega
      · have hnone : cut size (room - weight size marker) after = [] := by
          rw [show room - weight size marker = 0 by omega, cut_zero hsize]
        rw [hnone, List.nil_append]
        dsimp only
        rw [← hroom]
        constructor
        · rintro ⟨h, _⟩
          have hshort := weight_cut_le size (total - weight size marker) whole
          rcases List.append_eq_append_iff.mp h with ⟨first, hq, _⟩ | ⟨first, hq, hm⟩
          · rw [hq, weight_append] at hshort
            omega
          · have hfirst : first ≠ [] := by
              rintro rfl
              rw [List.append_nil] at hq
              rw [← hq] at hshort
              omega
            have hlast := marker_once hmarker hfirst hm
            rw [hlast, List.append_nil] at h
            exact .inr ⟨by omega, by omega, .inr ⟨by omega, hlast, h⟩⟩
        · rintro (⟨h, h'⟩ | ⟨_, _, ⟨h, _⟩ | ⟨_, hlast, h⟩⟩)
          · omega
          · omega
          · rw [hlast, List.append_nil]
            exact ⟨h, rfl⟩

theorem weight_add_le (h : weight size b.kept ≤ limit) (text : List α) :
    weight size (b.add size limit marker text).kept ≤ limit := by
  unfold add
  split
  · exact h
  split
  · rename_i hfits
    unfold room at hfits
    rw [weight_append]
    omega
  · have hcut := weight_cut_le size (b.room size limit - weight size marker) text
    have hmark := weight_cut_le size (b.room size limit) marker
    have hwhole : weight size (cut size (b.room size limit) marker) ≤ weight size marker := by
      obtain ⟨rest, hrest⟩ := prefix_cut size (b.room size limit) marker
      conv_rhs => rw [← hrest]
      rw [weight_append]
      omega
    dsimp only
    rw [weight_append, weight_append]
    unfold room at hcut hmark hwhole ⊢
    omega

/-- All that was added is there, or a prefix of it that the marker closes. -/
def Honest (marker : List α) (b : Clipped α) (added : List α) : Prop :=
  (b.clipped = false ∧ b.kept = added) ∨
    (b.clipped = true ∧ ∃ start, start <+: added ∧ b.kept = start ++ marker)

/-- An addition is honest where its text fits or the marker does. -/
theorem Honest.add {added : List α} (h : Honest marker b added)
    (hroom : b.clipped = true ∨ weight size text ≤ b.room size limit ∨
      weight size marker ≤ b.room size limit) :
    Honest marker (b.add size limit marker text) (added ++ text) := by
  rcases h with ⟨hb, hkept⟩ | ⟨hb, start, hstart, hkept⟩
  · by_cases hfits : weight size text ≤ b.room size limit
    · rw [add_fits hb hfits, hkept]
      exact .inl ⟨rfl, rfl⟩
    · have hmark : weight size marker ≤ b.room size limit := by
        rcases hroom with h | h | h
        · rw [hb] at h
          cases h
        · exact absurd h hfits
        · exact h
      rw [add_overflows hb (by omega), cut_of_le hmark, hkept]
      exact .inr ⟨rfl, _, (List.prefix_append_right_inj added).mpr (prefix_cut size _ _), rfl⟩
  · rw [add_clipped hb]
    exact .inr ⟨hb, start, hstart.trans (List.prefix_append _ _), hkept⟩

end Clipped

end Clips

section Offsets

variable {α : Type} (size : α → Nat)

/-- The items before an offset and those behind it, where it does not fall within an item. -/
def split_at : List α → Nat → Option (List α × List α)
  | l, 0 => some ([], l)
  | [], _ + 1 => none
  | a :: l, n + 1 =>
    if size a ≤ n + 1 then
      (split_at l (n + 1 - size a)).map fun (before, behind) => (a :: before, behind)
    else none

/-- The items between two offsets. -/
def slice_between (l : List α) (start stop : Nat) : Option (List α) :=
  if start ≤ stop then do
    let (_, behind) ← split_at size l start
    let (between, _) ← split_at size behind (stop - start)
    some between
  else none

/-- Other items in the place of those between two offsets. -/
def replace_between (l : List α) (start stop : Nat) (new : List α) : Option (List α) :=
  if start ≤ stop then do
    let (before, _) ← split_at size l start
    let (_, behind) ← split_at size l stop
    some (before ++ new ++ behind)
  else none

variable {size}

theorem split_at_weight (hsize : ∀ a, 0 < size a) (l l' : List α) :
    split_at size (l ++ l') (weight size l) = some (l, l') := by
  induction l with
  | nil =>
    cases l' with
    | nil => rfl
    | cons a l' => rfl
  | cons a l ih =>
    obtain ⟨n, hn⟩ : ∃ n, weight size (a :: l) = n + 1 :=
      ⟨weight size (a :: l) - 1, by have := hsize a; rw [weight_cons]; omega⟩
    have hrest : n + 1 - size a = weight size l := by
      rw [← hn, weight_cons, Nat.add_sub_cancel_left]
    have hle : size a ≤ n + 1 := by
      rw [← hn, weight_cons]
      exact Nat.le_add_right _ _
    rw [hn, List.cons_append, split_at, if_pos hle, hrest, ih]
    rfl

theorem slice_between_eq (hsize : ∀ a, 0 < size a) (before between behind : List α) :
    slice_between size (before ++ between ++ behind) (weight size before)
      (weight size (before ++ between)) = some between := by
  unfold slice_between
  rw [weight_append, if_pos (Nat.le_add_right _ _), Nat.add_sub_cancel_left, List.append_assoc,
    split_at_weight hsize]
  change (split_at size (between ++ behind) (weight size between)).bind _ = _
  rw [split_at_weight hsize]
  rfl

theorem replace_between_eq (hsize : ∀ a, 0 < size a) (before between behind new : List α) :
    replace_between size (before ++ between ++ behind) (weight size before)
      (weight size (before ++ between)) new = some (before ++ new ++ behind) := by
  have hstart : split_at size (before ++ between ++ behind) (weight size before) =
      some (before, between ++ behind) := by
    rw [List.append_assoc, split_at_weight hsize]
  unfold replace_between
  rw [if_pos (by rw [weight_append]; exact Nat.le_add_right _ _), hstart, split_at_weight hsize]
  rfl

/-- A text falls apart at two places. -/
theorem take_between {i j : Nat} (h : i ≤ j) (l : List α) :
    l.take i ++ (l.drop i).take (j - i) = l.take j := by
  rw [← List.take_add, Nat.add_sub_cancel' h]

theorem slice_between_take (hsize : ∀ a, 0 < size a) {i j : Nat} (h : i ≤ j) (l : List α) :
    slice_between size l (weight size (l.take i)) (weight size (l.take j)) =
      some ((l.drop i).take (j - i)) := by
  have hslice := slice_between_eq hsize (l.take i) ((l.drop i).take (j - i)) (l.drop j)
  rwa [take_between h, List.take_append_drop] at hslice

theorem replace_between_take (hsize : ∀ a, 0 < size a) {i j : Nat} (h : i ≤ j) (l new : List α) :
    replace_between size l (weight size (l.take i)) (weight size (l.take j)) new =
      some (l.take i ++ new ++ l.drop j) := by
  have hreplace := replace_between_eq hsize (l.take i) ((l.drop i).take (j - i)) (l.drop j) new
  rwa [take_between h, List.take_append_drop] at hreplace

end Offsets

end Seance.Lib
