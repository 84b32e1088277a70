import Mathlib.Data.List.Forall2
import Seance.Lib.Numbered

namespace Seance.Ui

/-- Where the loop of `fuzzy_score` is: scores wrap around. -/
structure FuzzyMatch where
  score : Int32 := 0
  indices : List Nat := []
  hay_idx : Nat := 0
  prev_match : Bool := false
  consecutive : Int32 := 0

section Fuzzy

-- the characters of `char::to_lowercase`
variable (to_lowercase : Char → List Char)

/-- `c.to_lowercase().next().unwrap_or(c)` -/
def lower (c : Char) : Char := (to_lowercase c).head?.getD c

/-- A character of the haystack is matched. -/
def FuzzyMatch.push (hay : List Char) (nc hc : Char) (m : FuzzyMatch) : FuzzyMatch :=
  let consecutive := if m.prev_match then m.consecutive + 1 else 0
  let score := m.score + if m.prev_match then 4 + consecutive else 1
  let is_word_start := m.hay_idx = 0 ∨ hay[m.hay_idx - 1]?.any (· ∈ [' ', '_', '-', ':'])
  { score := score + (if is_word_start then 6 else 0) + (if m.hay_idx = 0 then 8 else 0) +
      if hc = nc then 1 else 0
    indices := m.indices ++ [m.hay_idx]
    hay_idx := m.hay_idx + 1
    prev_match := true
    consecutive }

/-- The search for a character in the rest of the haystack. -/
def fuzzy_find (hay : List Char) (nc : Char) (m : FuzzyMatch) :
    List Char → Option (FuzzyMatch × List Char)
  | [] => none
  | hc :: rest =>
    if lower to_lowercase hc = lower to_lowercase nc then some (m.push hay nc hc, rest)
    else fuzzy_find hay nc
      { m with hay_idx := m.hay_idx + 1, prev_match := false, consecutive := 0 } rest

def fuzzy_match (hay : List Char) (m : FuzzyMatch) (rest : List Char) :
    List Char → Option FuzzyMatch
  | [] => some m
  | nc :: need => do
    let (m, rest) ← fuzzy_find to_lowercase hay nc m rest
    fuzzy_match hay m rest need

def fuzzy_score (haystack needle : List Char) : Option (Int32 × List Nat) :=
  if needle = [] then some (0, [])
  else (fuzzy_match to_lowercase haystack {} haystack needle).map fun m => (m.score, m.indices)

variable {to_lowercase} {hay rest need : List Char} {m m' : FuzzyMatch}

/-- What a character of the needle is matched by. -/
def Matches (to_lowercase : Char → List Char) (hay : List Char) (i : Nat) (nc : Char) : Prop :=
  ∃ hc, hay[i]? = some hc ∧ lower to_lowercase hc = lower to_lowercase nc

/-- The search stops at the first character that matches. -/
theorem fuzzy_find_some {rest' : List Char} {nc : Char} (hrest : hay.drop m.hay_idx = rest)
    (h : fuzzy_find to_lowercase hay nc m rest = some (m', rest')) :
    ∃ i, m'.indices = m.indices ++ [i] ∧ m.hay_idx ≤ i ∧ m'.hay_idx = i + 1 ∧
      hay.drop m'.hay_idx = rest' ∧ Matches to_lowercase hay i nc := by
  induction rest generalizing m with
  | nil => cases h
  | cons hc rest ih =>
    have hget : hay[m.hay_idx]? = some hc := by
      rw [← List.head?_drop, hrest]
      rfl
    have hdrop : hay.drop (m.hay_idx + 1) = rest := by
      rw [← List.tail_drop, hrest]
      rfl
    rw [fuzzy_find] at h
    split at h
    · rename_i heq
      cases h
      exact ⟨m.hay_idx, rfl, Nat.le_refl _, rfl, hdrop, hc, hget, heq⟩
    · obtain ⟨i, hindices, hle, hidx, hbehind, hmatch⟩ := ih hdrop h
      exact ⟨i, hindices, Nat.le_of_succ_le hle, hidx, hbehind, hmatch⟩

/-- Where the needle goes on from a match, it goes on from the first one. -/
theorem fuzzy_find_sublist (hay : List Char) (nc : Char) (m : FuzzyMatch) :
    ((nc :: need).map (lower to_lowercase)).Sublist (rest.map (lower to_lowercase)) ↔
      ∃ m' rest', fuzzy_find to_lowercase hay nc m rest = some (m', rest') ∧
        (need.map (lower to_lowercase)).Sublist (rest'.map (lower to_lowercase)) := by
  induction rest generalizing m with
  | nil =>
    refine ⟨fun h => ?_, fun ⟨_, _, h, _⟩ => by cases h⟩
    cases h
  | cons hc rest ih =>
    rw [fuzzy_find, List.map_cons, List.map_cons]
    split
    · rename_i heq
      rw [heq, List.cons_sublist_cons]
      constructor
      · exact fun h => ⟨_, _, rfl, h⟩
      · rintro ⟨m', rest', hsome, h⟩
        cases hsome
        exact h
    · rename_i hne
      rw [← ih]
      exact ⟨fun h => h.of_cons_of_ne (Ne.symm hne), fun h => h.cons _⟩

/-- A match goes through where the needle is a subsequence of the rest. -/
theorem fuzzy_match_isSome_iff (m : FuzzyMatch) :
    (fuzzy_match to_lowercase hay m rest need).isSome ↔
      (need.map (lower to_lowercase)).Sublist (rest.map (lower to_lowercase)) := by
  induction need generalizing m rest with
  | nil => exact ⟨fun _ => List.nil_sublist _, fun _ => rfl⟩
  | cons nc need ih =>
    rw [fuzzy_find_sublist hay nc m, fuzzy_match]
    cases hfind : fuzzy_find to_lowercase hay nc m rest with
    | none => exact ⟨nofun, fun ⟨_, _, h, _⟩ => by cases h⟩
    | some found =>
      refine (ih found.1).trans ⟨fun h => ⟨_, _, rfl, h⟩, ?_⟩
      rintro ⟨m', rest', hsome, h⟩
      cases hsome
      exact h

/-- The indices that are added go up from where the search is, each at a character that matches. -/
theorem fuzzy_match_indices (hrest : hay.drop m.hay_idx = rest)
    (h : fuzzy_match to_lowercase hay m rest need = some m') :
    ∃ found, m'.indices = m.indices ++ found ∧ found.Pairwise (· < ·) ∧
      (∀ i ∈ found, m.hay_idx ≤ i ∧ i < hay.length) ∧
      List.Forall₂ (Matches to_lowercase hay) found need := by
  induction need generalizing m rest with
  | nil =>
    cases h
    exact ⟨[], (List.append_nil _).symm, List.Pairwise.nil, List.forall_mem_nil _, .nil⟩
  | cons nc need ih =>
    rw [fuzzy_match] at h
    cases hfind : fuzzy_find to_lowercase hay nc m rest with
    | none =>
      rw [hfind] at h
      cases h
    | some next =>
      obtain ⟨m₁, rest₁⟩ := next
      rw [hfind] at h
      obtain ⟨i, hindices, hle, hidx, hbehind, hmatch⟩ := fuzzy_find_some hrest hfind
      obtain ⟨found, hfound, hup, habove, hmatches⟩ := ih hbehind h
      refine ⟨i :: found, ?_, List.pairwise_cons.mpr ⟨fun j hj => ?_, hup⟩,
        List.forall_mem_cons.mpr ⟨⟨hle, ?_⟩, fun j hj => ?_⟩, .cons hmatch hmatches⟩
      · rw [hfound, hindices, List.append_assoc]
        rfl
      · have := (habove j hj).1
        omega
      · obtain ⟨_, hget, _⟩ := hmatch
        exact (List.getElem?_eq_some_iff.mp hget).1
      · obtain ⟨hbelow, hlt⟩ := habove j hj
        exact ⟨by omega, hlt⟩

end Fuzzy

/-- A score is given exactly if the needle is a subsequence of the haystack, up to case; then the
indices go up, and each points at a character of the haystack that matches the one of the needle. -/
theorem fuzzy_score_spec (to_lowercase : Char → List Char) (haystack needle : List Char) :
    ((fuzzy_score to_lowercase haystack needle).isSome ↔
      (needle.map (lower to_lowercase)).Sublist (haystack.map (lower to_lowercase))) ∧
    ∀ score indices, fuzzy_score to_lowercase haystack needle = some (score, indices) →
      indices.Pairwise (· < ·) ∧ (∀ i ∈ indices, i < haystack.length) ∧
        indices.length = needle.length ∧
        List.Forall₂ (fun i nc => ∃ hc, haystack[i]? = some hc ∧
          lower to_lowercase hc = lower to_lowercase nc) indices needle := by
  unfold fuzzy_score
  split
  · rename_i hnil
    refine ⟨⟨fun _ => hnil ▸ List.nil_sublist _, fun _ => rfl⟩, fun score indices h => ?_⟩
    cases h
    rw [hnil]
    exact ⟨List.Pairwise.nil, List.forall_mem_nil _, rfl, .nil⟩
  · refine ⟨?_, fun score indices h => ?_⟩
    · rw [Option.isSome_map, fuzzy_match_isSome_iff]
    · obtain ⟨m, hm, hresult⟩ := Option.map_eq_some_iff.mp h
      cases hresult
      obtain ⟨found, hindices, hup, hwithin, hmatches⟩ := fuzzy_match_indices List.drop_zero hm
      rw [List.nil_append] at hindices
      rw [hindices]
      exact ⟨hup, fun i hi => (hwithin i hi).2, hmatches.length_eq, hmatches⟩

/-- Read over a word boundary and without its case. -/
example : fuzzy_score (fun c => [c.toLower]) "New Tunnel".toList "nT".toList =
    some (23, [0, 4]) := by decide +kernel

inductive PaletteGroup
  | sessions
  | hosts
  | tunnels
  | vault
  | appearance
  | system
  deriving DecidableEq

structure PaletteItem where
  label : List Char
  hint : List Char
  group : PaletteGroup
  match_indices : List Nat

inductive PaletteRow
  | header (group : PaletteGroup)
  | item (palette_index : Nat) (item : PaletteItem)

structure PaletteViewModel where
  items : List PaletteItem
  rows : List PaletteRow := []
  item_to_row : List Nat := []
  row_to_item : List (Option Nat) := []

namespace PaletteViewModel

def push_header (model : PaletteViewModel) (group : PaletteGroup) : PaletteViewModel :=
  { model with
    rows := model.rows ++ [.header group]
    row_to_item := model.row_to_item ++ [none] }

def push_item (model : PaletteViewModel) (palette_index : Nat) (item : PaletteItem) :
    PaletteViewModel :=
  { model with
    item_to_row := model.item_to_row ++ [model.rows.length]
    rows := model.rows ++ [.item palette_index item]
    row_to_item := model.row_to_item ++ [some palette_index] }

end PaletteViewModel

/-- The loop over the items: a header stands before an item of another group. -/
def flatten_loop (show_groups : Bool) (palette_index : Nat) (prev_group : Option PaletteGroup)
    (model : PaletteViewModel) : List PaletteItem → PaletteViewModel
  | [] => model
  | item :: items =>
    if show_groups ∧ prev_group ≠ some item.group then
      flatten_loop show_groups (palette_index + 1) (some item.group)
        ((model.push_header item.group).push_item palette_index item) items
    else
      flatten_loop show_groups (palette_index + 1) prev_group
        (model.push_item palette_index item) items

def flatten_items (items : List PaletteItem) (show_groups : Bool) : PaletteViewModel :=
  flatten_loop show_groups 0 none { items } items

def find_item_at_or_after (row_to_item : List (Option Nat)) (target_row : Nat) : Option Nat :=
  ((row_to_item.drop target_row).filterMap id).head?

def find_item_at_or_before (row_to_item : List (Option Nat)) (target_row : Nat) : Option Nat :=
  ((row_to_item.take (target_row + 1)).reverse.filterMap id).head?

inductive PageDirection
  | up
  | down

def page_target_index (row_to_item : List (Option Nat)) (item_to_row : List Nat)
    (current_item visible_row_span : Nat) (direction : PageDirection) : Nat :=
  match item_to_row[min current_item (item_to_row.length - 1)]? with
  -- there is no item
  | none => 0
  | some current_row =>
    let span := max visible_row_span 1
    match direction with
    | .down =>
      let target_row := min (current_row + span) (row_to_item.length - 1)
      ((find_item_at_or_after row_to_item target_row).or
        (find_item_at_or_before row_to_item (row_to_item.length - 1))).getD 0
    | .up =>
      let target_row := current_row - span
      ((find_item_at_or_before row_to_item target_row).or
        (find_item_at_or_after row_to_item 0)).getD 0

/-- The item of a row, with its index. -/
def PaletteRow.entry : PaletteRow → Option (Nat × PaletteItem)
  | .header _ => none
  | .item palette_index shown => some (palette_index, shown)

/-- The maps of a view model say where the items shown so far are. -/
structure PaletteViewModel.Coherent (model : PaletteViewModel) (shown : List PaletteItem) :
    Prop where
  slots : model.row_to_item = model.rows.map fun row => row.entry.map Prod.fst
  places : model.item_to_row = Lib.held_places 0 model.row_to_item
  entries : model.rows.filterMap PaletteRow.entry = shown.zipIdx.map Prod.swap

namespace PaletteViewModel.Coherent

variable {model : PaletteViewModel} {shown items : List PaletteItem} {show_groups : Bool}
  {palette_index : Nat} {prev_group : Option PaletteGroup}

theorem push_header (h : model.Coherent shown) (group : PaletteGroup) :
    (model.push_header group).Coherent shown where
  slots := by
    rw [PaletteViewModel.push_header, List.map_append, ← h.slots]
    rfl
  places := by
    rw [PaletteViewModel.push_header, Lib.held_places_append, ← h.places]
    exact (List.append_nil _).symm
  entries := by
    rw [PaletteViewModel.push_header, List.filterMap_append, h.entries]
    exact List.append_nil _

theorem push_item (h : model.Coherent shown) (hindex : shown.length = palette_index)
    (item : PaletteItem) : (model.push_item palette_index item).Coherent (shown ++ [item]) where
  slots := by
    rw [PaletteViewModel.push_item, List.map_append, ← h.slots]
    rfl
  places := by
    rw [PaletteViewModel.push_item, Lib.held_places_append, ← h.places, Nat.zero_add, h.slots,
      List.length_map]
    rfl
  entries := by
    rw [PaletteViewModel.push_item, List.filterMap_append, h.entries, List.zipIdx_append,
      List.map_append, Nat.zero_add, hindex]
    rfl

theorem flatten_loop (h : model.Coherent shown) (hindex : shown.length = palette_index) :
    (flatten_loop show_groups palette_index prev_group model items).Coherent (shown ++ items) := by
  induction items generalizing model shown palette_index prev_group with
  | nil => exact (List.append_nil shown).symm ▸ h
  | cons item items ih =>
    have hnext : (shown ++ [item]).length = palette_index + 1 := by
      rw [List.length_append, hindex]
      rfl
    rw [Ui.flatten_loop, List.append_cons]
    split
    · exact ih ((h.push_header item.group).push_item hindex item) hnext
    · exact ih (h.push_item hindex item) hnext

theorem flatten_items (items : List PaletteItem) (show_groups : Bool) :
    (flatten_items items show_groups).Coherent items := by
  have hempty : Coherent { items } [] := ⟨rfl, rfl, rfl⟩
  exact hempty.flatten_loop rfl

theorem numbered (h : model.Coherent shown) : Lib.Numbered model.row_to_item shown.length :=
  calc model.row_to_item.filterMap id
      = (model.rows.filterMap PaletteRow.entry).map Prod.fst := by
        rw [h.slots, List.filterMap_map, List.map_filterMap]
        rfl
    _ = List.range shown.length := by
        rw [h.entries, List.map_map]
        exact List.zipIdx_map_snd 0 shown ▸ List.range_eq_range'.symm

theorem length_eq (h : model.Coherent shown) : model.item_to_row.length = shown.length := by
  rw [h.places, Lib.held_places_length]
  exact (congrArg List.length h.numbered).trans List.length_range

theorem pairwise (h : model.Coherent shown) : model.item_to_row.Pairwise (· < ·) :=
  h.places ▸ (Lib.held_places_pairwise 0 model.row_to_item).1

theorem inverse (h : model.Coherent shown) (i row : Nat) :
    model.item_to_row[i]? = some row ↔ model.row_to_item[row]? = some (some i) := by
  rw [h.places]
  exact h.numbered.held_places_iff

end PaletteViewModel.Coherent

section Paging

variable {row_to_item : List (Option Nat)} {n target_row current_row : Nat}
  {model : PaletteViewModel} {items : List PaletteItem}

theorem find_item_at_or_after_eq (h : Lib.Numbered row_to_item n) (target_row : Nat) :
    find_item_at_or_after row_to_item target_row =
      if Lib.held_before row_to_item target_row < n
        then some (Lib.held_before row_to_item target_row) else none :=
  h.head_behind target_row

theorem find_item_at_or_before_eq (h : Lib.Numbered row_to_item n) (target_row : Nat) :
    find_item_at_or_before row_to_item target_row =
      if Lib.held_before row_to_item (target_row + 1) = 0 then none
        else some (Lib.held_before row_to_item (target_row + 1) - 1) := by
  rw [← h.last_before, find_item_at_or_before, List.filterMap_reverse, List.head?_reverse]

/-- The item a page leads to from a row. -/
def page_item (row_to_item : List (Option Nat)) (n current_row span : Nat) : PageDirection → Nat
  | .down => min (Lib.held_before row_to_item
      (min (current_row + max span 1) (row_to_item.length - 1))) (n - 1)
  | .up => Lib.held_before row_to_item (current_row - max span 1 + 1) - 1

/-- The other way is looked in only where this way has nothing. -/
theorem page_target_index_eq (h : Lib.Numbered row_to_item n) {item_to_row : List Nat} {i j : Nat}
    (hrow : item_to_row[min i (item_to_row.length - 1)]? = some current_row)
    (hslot : row_to_item[current_row]? = some (some j)) (span : Nat) (direction : PageDirection) :
    page_target_index row_to_item item_to_row i span direction =
      page_item row_to_item n current_row span direction := by
  have hall : Lib.held_before row_to_item row_to_item.length = n := by
    rw [Lib.held_before, List.take_length]
    exact (congrArg List.length h).trans List.length_range
  have hpos : 0 < n := Nat.zero_lt_of_lt (h.held_lt hslot)
  have hlen : row_to_item.length - 1 + 1 = row_to_item.length :=
    Nat.succ_pred_eq_of_pos (Nat.zero_lt_of_lt (List.getElem?_eq_some_iff.mp hslot).1)
  rw [page_target_index, hrow]
  cases direction with
  | down =>
    dsimp only [page_item]
    rw [find_item_at_or_after_eq h, find_item_at_or_before_eq h, hlen, hall,
      if_neg (Nat.ne_of_gt hpos)]
    split
    · rename_i hlt
      exact (Nat.min_eq_left (Nat.le_pred_of_lt hlt)).symm
    · rename_i hge
      exact (Nat.min_eq_right ((Nat.pred_le n).trans (Nat.le_of_not_lt hge))).symm
  | up =>
    dsimp only [page_item]
    rw [find_item_at_or_after_eq h, find_item_at_or_before_eq h, Lib.held_before_zero,
      if_pos hpos]
    split
    · rename_i hzero
      rw [hzero]
      rfl
    · rfl

/-- A selection behind the last item is taken for the last item. -/
theorem PaletteViewModel.Coherent.page (h : model.Coherent items) (hitems : items ≠ []) (i : Nat) :
    ∃ row, model.item_to_row[min i (items.length - 1)]? = some row ∧ ∀ span direction,
      page_target_index model.row_to_item model.item_to_row i span direction =
        page_item model.row_to_item items.length row span direction := by
  have hpos : 0 < items.length := List.length_pos_of_ne_nil hitems
  have hlt : min i (items.length - 1) < model.item_to_row.length := by
    rw [h.length_eq]
    omega
  have hrow := List.getElem?_eq_getElem hlt
  have hslot := (h.inverse _ _).mp hrow
  refine ⟨_, hrow, fun span direction => page_target_index_eq h.numbered ?_ hslot span direction⟩
  rw [h.length_eq]
  exact hrow

theorem page_item_lt (hpos : 0 < n) (h : Lib.Numbered row_to_item n) (span : Nat)
    (direction : PageDirection) : page_item row_to_item n current_row span direction < n := by
  cases direction with
  | down => exact Nat.lt_of_le_of_lt (Nat.min_le_right _ _) (Nat.pred_lt_of_lt hpos)
  | up =>
    have hle := h.held_before_le (current_row - max span 1 + 1)
    rw [page_item]
    omega

theorem page_item_mono {next_row : Nat} (hrow : current_row ≤ next_row) (span : Nat)
    (direction : PageDirection) : page_item row_to_item n current_row span direction ≤
      page_item row_to_item n next_row span direction := by
  cases direction with
  | down =>
    have htarget : min (current_row + max span 1) (row_to_item.length - 1) ≤
        min (next_row + max span 1) (row_to_item.length - 1) := by omega
    have hbefore : Lib.held_before row_to_item _ ≤ Lib.held_before row_to_item _ :=
      Lib.held_before_mono htarget
    dsimp only [page_item]
    omega
  | up => exact Nat.sub_le_sub_right (Lib.held_before_mono (by omega)) 1

/-- Behind the row of an item that is not the last one there is a row. -/
theorem page_down (h : Lib.Numbered row_to_item n) {i : Nat}
    (hslot : row_to_item[current_row]? = some (some i)) (hlast : i + 1 < n) (span : Nat) :
    i < page_item row_to_item n current_row span .down := by
  have hnext : current_row + 1 < row_to_item.length := by
    by_contra hend
    have hall : Lib.held_before row_to_item (current_row + 1) = n := by
      rw [Lib.held_before, List.take_of_length_le (Nat.le_of_not_lt hend)]
      exact (congrArg List.length h).trans List.length_range
    have := (h.held hslot).2
    omega
  have htarget : current_row + 1 ≤
      min (current_row + max span 1) (row_to_item.length - 1) := by omega
  have hbefore : Lib.held_before row_to_item _ ≤ Lib.held_before row_to_item _ :=
    Lib.held_before_mono htarget
  rw [(h.held hslot).2] at hbefore
  rw [page_item]
  omega

/-- In front of the row of an item that is not the first one there is a row. -/
theorem page_up (h : Lib.Numbered row_to_item n) {i : Nat}
    (hslot : row_to_item[current_row]? = some (some i)) (hfirst : 0 < i) (span : Nat) :
    page_item row_to_item n current_row span .up < i := by
  have hheld := (h.held hslot).1
  have hrow : 0 < current_row := by
    by_contra hzero
    rw [Nat.eq_zero_of_not_pos hzero, Lib.held_before_zero] at hheld
    omega
  have htarget : current_row - max span 1 + 1 ≤ current_row := by omega
  have hbefore : Lib.held_before row_to_item _ ≤ Lib.held_before row_to_item _ :=
    Lib.held_before_mono htarget
  rw [page_item]
  omega

end Paging

/-- The rows and items of a palette lead to each other in their order. A page leads to an item, to
none before that of an earlier selection, and on from all but the last item or back from all but the
first. -/
theorem palette_navigation (items : List PaletteItem) (show_groups : Bool) :
    let model := flatten_items items show_groups
    (model.rows.map fun row => row.entry.map Prod.fst) = model.row_to_item ∧
    model.rows.filterMap PaletteRow.entry = items.zipIdx.map Prod.swap ∧
    model.item_to_row.length = items.length ∧
    (∀ i row : Nat, model.item_to_row[i]? = some row ↔ model.row_to_item[row]? = some (some i)) ∧
    model.item_to_row.Pairwise (· < ·) ∧
    ∀ span direction,
      let page (i : Nat) := page_target_index model.row_to_item model.item_to_row i span direction
      (items ≠ [] → ∀ i, page i < items.length) ∧
      (∀ i j, i ≤ j → page i ≤ page j) ∧
      ∀ i < items.length, match direction with
        | .down => i + 1 < items.length → i < page i
        | .up => 0 < i → page i < i := by
  intro model
  have h : model.Coherent items := .flatten_items items show_groups
  refine ⟨h.slots.symm, h.entries, h.length_eq, h.inverse, h.pairwise, fun span direction => ?_⟩
  intro page
  refine ⟨fun hitems i => ?_, fun i j hle => ?_, fun i hi => ?_⟩
  · obtain ⟨row, _, hpage⟩ := h.page hitems i
    dsimp only [page]
    rw [hpage]
    exact page_item_lt (List.length_pos_of_ne_nil hitems) h.numbered span direction
  · rcases eq_or_ne items [] with hnil | hitems
    · have hempty : model.item_to_row = [] := by
        rw [← List.length_eq_zero_iff, h.length_eq, hnil]
        rfl
      dsimp only [page]
      rw [hempty]
      exact Nat.le_refl 0
    · obtain ⟨row, hrow, hpage⟩ := h.page hitems i
      obtain ⟨next_row, hnext, hnext_page⟩ := h.page hitems j
      dsimp only [page]
      rw [hpage, hnext_page]
      have hslot := (h.inverse _ row).mp hrow
      have hnext_slot := (h.inverse _ next_row).mp hnext
      exact page_item_mono (h.numbered.place_mono hslot hnext_slot (by omega)) span direction
  · have hitems : items ≠ [] := by
      rintro rfl
      cases hi
    obtain ⟨row, hrow, hpage⟩ := h.page hitems i
    rw [Nat.min_eq_left (Nat.le_sub_one_of_lt hi)] at hrow
    have hslot := (h.inverse i row).mp hrow
    dsimp only [page]
    rw [hpage]
    cases direction with
    | down => exact fun hlast => page_down h.numbered hslot hlast span
    | up => exact fun hfirst => page_up h.numbered hslot hfirst span

example : page_target_index [none, some 0, some 1, none, some 2] [1, 2, 4] 0 2 .down = 2 := by
  decide

end Seance.Ui
