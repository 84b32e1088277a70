import Mathlib.Data.List.Nodup
import Mathlib.Data.List.Perm.Basic

namespace Seance.Lib

/-- A relation whose rows are told apart by a primary key. The rows stand in
insertion order; no two of them carry one key. -/
structure Table {κ ρ : Type} (key : ρ → κ) where
  rows : List ρ
  unique : (rows.map key).Nodup

namespace Table

variable {κ ρ : Type} {key : ρ → κ}

def empty : Table key := ⟨[], List.nodup_nil⟩

instance : Inhabited (Table key) := ⟨empty⟩

instance [DecidableEq ρ] : DecidableEq (Table key) := fun t u =>
  decidable_of_iff (t.rows = u.rows) (by cases t; cases u; simp)

@[simp] theorem empty_rows : (empty : Table key).rows = [] := rfl

/-- Rows with a given key value taken out by a test on the row. -/
def delete (t : Table key) (p : ρ → Bool) : Table key where
  rows := t.rows.filter (fun r => !p r)
  unique := t.unique.sublist (List.filter_sublist.map key)

section Update

variable (t : Table key) (p : ρ → Bool) (f : ρ → ρ) (hf : ∀ r, key (f r) = key r)

/-- Every selected row rewritten in place; the rewrite may not touch the key. -/
def update : Table key where
  rows := t.rows.map (fun r => if p r then f r else r)
  unique := by
    have hk : (t.rows.map (fun r => if p r then f r else r)).map key = t.rows.map key := by
      rw [List.map_map]
      apply List.map_congr_left
      intro r _
      simp only [Function.comp_apply]
      split
      · exact hf r
      · rfl
    rw [hk]
    exact t.unique

end Update

variable [DecidableEq κ]

def find? (t : Table key) (k : κ) : Option ρ :=
  t.rows.find? (fun r => decide (key r = k))

theorem find?_key {t : Table key} {k : κ} {r : ρ} (h : t.find? k = some r) : key r = k := by
  simpa using List.find?_some h

theorem mem_of_find? {t : Table key} {k : κ} {r : ρ} (h : t.find? k = some r) : r ∈ t.rows :=
  List.mem_of_find?_eq_some h

/-- A row is the one its key finds. -/
theorem find?_of_mem {t : Table key} {r : ρ} (h : r ∈ t.rows) : t.find? (key r) = some r := by
  obtain ⟨before, after, he⟩ := List.append_of_mem h
  have hu := t.unique
  rw [he, List.map_append, List.map_cons] at hu
  have hno : ∀ q ∈ before, key q ≠ key r := by
    intro q hq hk
    have hd := List.disjoint_of_nodup_append hu
    exact hd (List.mem_map.mpr ⟨q, hq, hk⟩) List.mem_cons_self
  unfold find?
  rw [he]
  apply List.find?_eq_some_iff_append.mpr
  exact ⟨by simp, before, after, rfl, fun q hq => by simpa using hno q hq⟩

theorem mem_iff_find? {t : Table key} {r : ρ} : r ∈ t.rows ↔ t.find? (key r) = some r :=
  ⟨find?_of_mem, mem_of_find?⟩

theorem find?_eq_none {t : Table key} {k : κ} : t.find? k = none ↔ ∀ r ∈ t.rows, key r ≠ k := by
  simp [find?]

@[simp] theorem find?_empty (k : κ) : (empty : Table key).find? k = none := rfl

/-- Two rows of one table with one key are the same row. -/
theorem eq_of_key_eq {t : Table key} {r q : ρ} (hr : r ∈ t.rows) (hq : q ∈ t.rows)
    (h : key r = key q) : r = q := by
  have hf := find?_of_mem hr
  rw [h, find?_of_mem hq] at hf
  exact (Option.some.inj hf).symm

/-- Plain INSERT: the key must be free. -/
def insert? (t : Table key) (r : ρ) : Option (Table key) :=
  if h : t.find? (key r) = none then
    some ⟨t.rows ++ [r], by
      rw [List.map_append, List.nodup_append]
      refine ⟨t.unique, by simp, ?_⟩
      intro a ha b hb
      obtain ⟨q, hq, rfl⟩ := List.mem_map.mp ha
      simp only [List.map_cons, List.map_nil, List.mem_singleton] at hb
      subst hb
      exact find?_eq_none.mp h q hq⟩
  else none

theorem find?_append_one (rows : List ρ) (r : ρ) (k : κ)
    (h : ∀ q ∈ rows, key q ≠ key r) :
    (rows ++ [r]).find? (fun q => decide (key q = k)) =
      if k = key r then some r else rows.find? (fun q => decide (key q = k)) := by
  rw [List.find?_append]
  by_cases hk : k = key r
  · subst hk
    have hn : rows.find? (fun q => decide (key q = key r)) = none := by
      simpa using h
    simp [hn]
  · have hk' : ¬ key r = k := fun he => hk he.symm
    simp [hk, hk']

theorem insert?_eq_some {t u : Table key} {r : ρ} (h : t.insert? r = some u) :
    t.find? (key r) = none ∧ ∀ k, u.find? k = if k = key r then some r else t.find? k := by
  unfold insert? at h
  split at h
  · rename_i hn
    cases h
    exact ⟨hn, fun k => find?_append_one t.rows r k (find?_eq_none.mp hn)⟩
  · cases h

theorem insert?_of_find?_none {t : Table key} {r : ρ} (h : t.find? (key r) = none) :
    ∃ u, t.insert? r = some u ∧ u.rows = t.rows ++ [r] := by
  unfold insert?
  rw [dif_pos h]
  exact ⟨_, rfl, rfl⟩

theorem insert?_rows {t u : Table key} {r : ρ} (h : t.insert? r = some u) :
    u.rows = t.rows ++ [r] := by
  obtain ⟨w, hw, hrows⟩ := insert?_of_find?_none (insert?_eq_some h).1
  rw [h] at hw
  cases hw
  exact hrows

section Upsert

variable (t : Table key) (r : ρ) (f : ρ → ρ) (hf : ∀ q, key q = key r → key (f q) = key r)

/-- INSERT … ON CONFLICT(key) DO UPDATE: a row with the key is replaced by its
image under `f`, otherwise the new row is appended. -/
def upsert : Table key where
  rows :=
    if (t.find? (key r)).isSome then t.rows.map (fun q => if key q = key r then f q else q)
    else t.rows ++ [r]
  unique := by
    split
    · have hk : (t.rows.map (fun q => if key q = key r then f q else q)).map key =
          t.rows.map key := by
        rw [List.map_map]
        apply List.map_congr_left
        intro q _
        simp only [Function.comp_apply]
        split
        · rename_i he
          rw [hf q he, he]
        · rfl
      rw [hk]
      exact t.unique
    · rename_i hn
      have hfree := find?_eq_none.mp (Option.not_isSome_iff_eq_none.mp hn)
      rw [List.map_append, List.nodup_append]
      refine ⟨t.unique, by simp, ?_⟩
      intro a ha b hb
      obtain ⟨q, hq, rfl⟩ := List.mem_map.mp ha
      simp only [List.map_cons, List.map_nil, List.mem_singleton] at hb
      subst hb
      exact hfree q hq

theorem find?_upsert (k : κ) :
    (t.upsert r f hf).find? k =
      if k = key r then some ((t.find? k).elim r f) else t.find? k := by
  unfold upsert find?
  dsimp only
  split
  · rename_i hs
    rw [List.find?_map]
    have hp : (fun q => decide (key q = k)) ∘ (fun q => if key q = key r then f q else q) =
        (fun q => decide (key q = k)) := by
      funext q
      simp only [Function.comp_apply]
      split
      · rename_i he
        rw [hf q he, he]
      · rfl
    rw [hp]
    by_cases hk : k = key r
    · subst hk
      obtain ⟨q, hq⟩ := Option.isSome_iff_exists.mp hs
      have hq' : t.rows.find? (fun q => decide (key q = key r)) = some q := hq
      simp [hq', find?_key hq]
    · rw [if_neg hk]
      cases hq : t.rows.find? (fun q => decide (key q = k)) with
      | none => rfl
      | some q =>
        have hkq : key q = k := find?_key hq
        have hne : ¬ key q = key r := fun he => hk (hkq.symm.trans he)
        simp [hne]
  · rename_i hn
    have hnone : t.find? (key r) = none := Option.not_isSome_iff_eq_none.mp hn
    rw [find?_append_one t.rows r k (find?_eq_none.mp hnone)]
    by_cases hk : k = key r
    · subst hk
      have hnone' : t.rows.find? (fun q => decide (key q = key r)) = none := hnone
      simp [hnone']
    · simp [hk]

/-- With a free key an upsert appends. -/
theorem upsert_rows_of_find?_none (h : t.find? (key r) = none) :
    (t.upsert r f hf).rows = t.rows ++ [r] := by
  simp [upsert, h]

end Upsert

/-- An upsert that overwrites the whole row. -/
def put (t : Table key) (r : ρ) : Table key := t.upsert r (fun _ => r) (fun _ _ => rfl)

@[simp] theorem find?_put (t : Table key) (r : ρ) (k : κ) :
    (t.put r).find? k = if k = key r then some r else t.find? k := by
  unfold put
  rw [find?_upsert]
  split
  · cases t.find? k <;> rfl
  · rfl

theorem mem_put {t : Table key} {r q : ρ} :
    q ∈ (t.put r).rows ↔ q = r ∨ (q ∈ t.rows ∧ key q ≠ key r) := by
  rw [mem_iff_find?, find?_put, mem_iff_find?]
  constructor
  · intro h
    split at h
    · exact .inl (Option.some.inj h).symm
    · rename_i hk
      exact .inr ⟨h, hk⟩
  · rintro (rfl | ⟨h, hk⟩)
    · simp
    · simp [hk, h]

/-- The rows with other keys stay as they are, in the order they are. -/
theorem filter_put (t : Table key) (r : ρ) :
    (t.put r).rows.filter (fun q => key q ≠ key r) = t.rows.filter (fun q => key q ≠ key r) := by
  unfold put upsert
  dsimp only
  split
  · induction t.rows with
    | nil => rfl
    | cons q rows ih =>
      rw [List.map_cons, List.filter_cons, List.filter_cons, ih]
      by_cases hq : key q = key r
      · simp [hq]
      · simp [hq]
  · simp [List.filter_append]

theorem mem_foldl_put {t : Table key} {rs : List ρ} {r : ρ} (h : r ∈ (rs.foldl put t).rows) :
    r ∈ t.rows ∨ r ∈ rs := by
  induction rs generalizing t with
  | nil => exact .inl h
  | cons q rs ih =>
    rcases ih h with h | h
    · rcases mem_put.mp h with rfl | ⟨h, _⟩
      · exact .inr List.mem_cons_self
      · exact .inl h
    · exact .inr (List.mem_cons_of_mem _ h)

/-- Rows with pairwise distinct free keys, written one after another by an operation that
appends a row with a free key, stand in the order written. -/
theorem foldl_rows {f : Table key → ρ → Table key}
    (hf : ∀ t r, t.find? (key r) = none → (f t r).rows = t.rows ++ [r])
    (rs : List ρ) (t : Table key) (hn : (rs.map key).Nodup)
    (hfree : ∀ r ∈ rs, t.find? (key r) = none) : (rs.foldl f t).rows = t.rows ++ rs := by
  induction rs generalizing t with
  | nil => simp
  | cons r rs ih =>
    simp only [List.map_cons, List.nodup_cons] at hn
    have hrow := hf t r (hfree r List.mem_cons_self)
    rw [List.foldl_cons, ih (f t r) hn.2, hrow, List.append_assoc, List.singleton_append]
    intro q hq
    rw [find?_eq_none, hrow]
    intro x hx
    rcases List.mem_append.mp hx with hx | hx
    · exact find?_eq_none.mp (hfree q (List.mem_cons_of_mem _ hq)) x hx
    · rw [List.mem_singleton.mp hx]
      exact fun he => hn.1 (he ▸ List.mem_map_of_mem hq)

theorem put_rows {t : Table key} {r : ρ} (h : t.find? (key r) = none) :
    (t.put r).rows = t.rows ++ [r] := upsert_rows_of_find?_none _ _ _ _ h

/-- Whatever the first table finds, the second one finds as it was. -/
def Keeps (t u : Table key) : Prop := ∀ k r, t.find? k = some r → u.find? k = some r

theorem Keeps.refl (t : Table key) : t.Keeps t := fun _ _ h => h

theorem Keeps.trans {t u v : Table key} (h : t.Keeps u) (h' : u.Keeps v) : t.Keeps v :=
  fun k r hr => h' k r (h k r hr)

theorem Keeps.mem {t u : Table key} (h : t.Keeps u) {r : ρ} (hr : r ∈ t.rows) : r ∈ u.rows :=
  mem_of_find? (h _ r (find?_of_mem hr))

theorem keeps_insert? {t u : Table key} {r : ρ} (h : t.insert? r = some u) : t.Keeps u := by
  obtain ⟨hfree, hfind⟩ := insert?_eq_some h
  intro k q hq
  rw [hfind, if_neg]
  · exact hq
  · rintro rfl
    rw [hfree] at hq
    cases hq

theorem keeps_put {t : Table key} {r : ρ} (h : t.find? (key r) = none) : t.Keeps (t.put r) := by
  intro k q hq
  rw [find?_put, if_neg]
  · exact hq
  · rintro rfl
    rw [h] at hq
    cases hq

section Lookups

variable {t : Table key}

theorem find?_delete (p : ρ → Bool) (k : κ) :
    (t.delete p).find? k = (t.find? k).filter (fun r => !p r) := by
  cases hk : t.find? k with
  | none =>
    rw [Option.filter_none]
    exact find?_eq_none.mpr (fun r hr => find?_eq_none.mp hk r (List.mem_filter.mp hr).1)
  | some r =>
    have hr := mem_of_find? hk
    have hkr := find?_key hk
    cases hp : p r with
    | true =>
      simp only [Option.filter_some, hp, Bool.not_true, Bool.false_eq_true, ↓reduceIte]
      apply find?_eq_none.mpr
      intro q hq he
      obtain ⟨hq, hpq⟩ := List.mem_filter.mp hq
      rw [eq_of_key_eq hq hr (he.trans hkr.symm), hp] at hpq
      cases hpq
    | false =>
      have hm : r ∈ (t.delete p).rows := List.mem_filter.mpr ⟨hr, by simp [hp]⟩
      have hf := find?_of_mem hm
      rw [hkr] at hf
      simp [hf, Option.filter_some, hp]

theorem find?_update (p : ρ → Bool) (f : ρ → ρ) (hf : ∀ r, key (f r) = key r) (k : κ) :
    (t.update p f hf).find? k = (t.find? k).map (fun r => if p r then f r else r) := by
  unfold update find?
  dsimp only
  rw [List.find?_map]
  have hp : (fun q => decide (key q = k)) ∘ (fun q => if p q then f q else q) =
      (fun q => decide (key q = k)) := by
    funext q
    simp only [Function.comp_apply]
    split
    · rw [hf q]
    · rfl
  rw [hp]

/-- A key picks at most one of the rows a test lets through, in whatever order they come. -/
theorem filter_key {p : ρ → Bool} {rows : List ρ} (hp : rows.Perm (t.rows.filter p)) (k : κ) :
    rows.filter (fun r => decide (key r = k)) = ((t.find? k).filter p).toList := by
  have hmem : ∀ r, r ∈ rows.filter (fun r => decide (key r = k)) ↔
      t.find? k = some r ∧ p r = true := by
    intro r
    rw [List.mem_filter, hp.mem_iff, List.mem_filter, decide_eq_true_eq]
    constructor
    · rintro ⟨⟨hr, hpr⟩, rfl⟩
      exact ⟨find?_of_mem hr, hpr⟩
    · rintro ⟨hr, hpr⟩
      exact ⟨⟨mem_of_find? hr, hpr⟩, find?_key hr⟩
  have hnodup : (rows.filter (fun r => decide (key r = k))).Nodup :=
    (hp.nodup_iff.mpr (t.unique.of_map.filter _)).filter _
  have hone : ∀ r, ((t.find? k).filter p).toList = [r] →
      rows.filter (fun r => decide (key r = k)) = [r] := by
    intro r hr
    apply List.perm_singleton.mp
    apply (List.perm_ext_iff_of_nodup hnodup (List.nodup_singleton r)).mpr
    intro q
    rw [hmem, ← hr, Option.mem_toList, Option.filter_eq_some_iff]
  cases ho : (t.find? k).filter p with
  | none =>
    rw [Option.toList_none, List.eq_nil_iff_forall_not_mem]
    intro r hr
    have hno := Option.filter_eq_some_iff.mpr ((hmem r).mp hr)
    rw [ho] at hno
    cases hno
  | some r => exact hone r (by rw [ho, Option.toList_some])

end Lookups

section Columns

variable {γ : Type} {t : Table key} {col : ρ → γ}

/-- A column that tells the rows apart besides the key. -/
def UniqueOn (t : Table key) (col : ρ → γ) : Prop :=
  ∀ r ∈ t.rows, ∀ q ∈ t.rows, col r = col q → r = q

omit [DecidableEq κ] in
theorem uniqueOn_empty : (empty : Table key).UniqueOn col := by
  rintro r ⟨⟩

theorem UniqueOn.insert? {u : Table key} {r : ρ} (hs : t.UniqueOn col)
    (h : t.insert? r = some u) (hfree : ∀ q ∈ t.rows, col q ≠ col r) : u.UniqueOn col := by
  intro p hp q hq he
  rw [insert?_rows h] at hp hq
  rcases List.mem_append.mp hp with hp | hp <;> rcases List.mem_append.mp hq with hq | hq
  · exact hs p hp q hq he
  · rw [List.mem_singleton.mp hq] at he
    exact absurd he (hfree p hp)
  · rw [List.mem_singleton.mp hp] at he
    exact absurd he.symm (hfree q hq)
  · rw [List.mem_singleton.mp hp, List.mem_singleton.mp hq]

omit [DecidableEq κ] in
/-- An update of other columns. -/
theorem UniqueOn.update (hs : t.UniqueOn col) {p : ρ → Bool} {f : ρ → ρ}
    (hf : ∀ r, key (f r) = key r) (hcol : ∀ r, col (f r) = col r) :
    (t.update p f hf).UniqueOn col := by
  intro r hr q hq he
  obtain ⟨r', hr', rfl⟩ := List.mem_map.mp hr
  obtain ⟨q', hq', rfl⟩ := List.mem_map.mp hq
  have hsame : ∀ x, col (if p x then f x else x) = col x := by
    intro x
    split
    · exact hcol x
    · rfl
  rw [hsame, hsame] at he
  rw [hs r' hr' q' hq' he]

/-- An update of one row to a value that no other row has. -/
theorem UniqueOn.update_one (hs : t.UniqueOn col) {k : κ} {f : ρ → ρ} {v : γ}
    (hf : ∀ r, key (f r) = key r) (hv : ∀ r, col (f r) = v)
    (hfree : (t.find? k).isSome → ∀ r ∈ t.rows, col r = v → key r = k) :
    (t.update (fun r => key r = k) f hf).UniqueOn col := by
  have hother : ∀ r ∈ t.rows, ∀ q ∈ t.rows, key r = k → key q ≠ k → col q ≠ v := by
    intro r hr q hq hk hne hcol
    have hsome : (t.find? k).isSome := by rw [← hk, find?_of_mem hr]; rfl
    exact hne (hfree hsome q hq hcol)
  intro r hr q hq he
  obtain ⟨r', hr', rfl⟩ := List.mem_map.mp hr
  obtain ⟨q', hq', rfl⟩ := List.mem_map.mp hq
  by_cases hr : key r' = k <;> by_cases hq : key q' = k
  · rw [eq_of_key_eq hr' hq' (hr.trans hq.symm)]
  · simp only [hr, hq, decide_true, decide_false, ↓reduceIte, hv, Bool.false_eq_true] at he
    exact absurd he.symm (hother r' hr' q' hq' hr hq)
  · simp only [hr, hq, decide_true, decide_false, ↓reduceIte, hv, Bool.false_eq_true] at he
    exact absurd he (hother q' hq' r' hr' hq hr)
  · simp only [hr, hq, decide_false, Bool.false_eq_true, ↓reduceIte] at he ⊢
    exact hs r' hr' q' hq' he

omit [DecidableEq κ] in
/-- A row found by such a column. -/
theorem UniqueOn.find?_of_mem [DecidableEq γ] (hs : t.UniqueOn col) {r : ρ} (hr : r ∈ t.rows) :
    t.rows.find? (fun q => col q = col r) = some r := by
  cases hfind : t.rows.find? (fun q => decide (col q = col r)) with
  | none => exact absurd (decide_eq_true rfl) (List.find?_eq_none.mp hfind r hr)
  | some q =>
    have hcol : col q = col r := by simpa using List.find?_some hfind
    rw [hs q (List.mem_of_find?_eq_some hfind) r hr hcol]

end Columns

end Table

/-- What a row is to the references between rows: live or not, of some kind, and pointing at
rows of given keys and kinds. -/
structure Linking (κ τ ρ : Type) where
  live : ρ → Prop
  tag : ρ → τ
  refersTo : ρ → κ → τ → Prop

namespace Linking

variable {κ τ ρ : Type} {key : ρ → κ}

section Notions

variable (link : Linking κ τ ρ) (t : Table key)

/-- A live row of the given kind stands under the key. -/
def LiveAt (k : κ) (tag : τ) : Prop := ∃ r ∈ t.rows, key r = k ∧ link.tag r = tag ∧ link.live r

/-- No live row points at a missing, dead or wrong one. -/
def Intact : Prop := ∀ r ∈ t.rows, link.live r → ∀ k tag, link.refersTo r k tag → link.LiveAt t k tag

/-- A live row with the key of `r` is of the kind of `r`. -/
def Replaces (r : ρ) : Prop := ∀ q ∈ t.rows, link.live q → key q = key r → link.tag q = link.tag r

end Notions

variable {link : Linking κ τ ρ}

theorem Intact.empty : link.Intact (Table.empty : Table key) := by
  intro r hr
  cases hr

variable [DecidableEq κ] {t : Table key} {r : ρ}

theorem LiveAt.other {k : κ} {tag : τ} (h : link.LiveAt t k tag) (hk : k ≠ key r) :
    link.LiveAt (t.put r) k tag := by
  obtain ⟨q, hq, hkey, htag, hlive⟩ := h
  refine ⟨q, Table.mem_put.mpr (.inr ⟨hq, ?_⟩), hkey, htag, hlive⟩
  rw [hkey]
  exact hk

/-- Overwriting a row by a live one of its kind leaves no reference dangling. -/
theorem LiveAt.put {k : κ} {tag : τ} (h : link.LiveAt t k tag) (hlive : link.live r)
    (hsame : link.Replaces t r) : link.LiveAt (t.put r) k tag := by
  by_cases hk : k = key r
  · obtain ⟨q, hq, hkey, htag, hqlive⟩ := h
    have hrtag := hsame q hq hqlive (hkey.trans hk)
    exact ⟨r, Table.mem_put.mpr (.inl rfl), hk.symm, hrtag.symm.trans htag, hlive⟩
  · exact h.other hk

theorem Intact.put_live (h : link.Intact t) (hlive : link.live r) (hsame : link.Replaces t r)
    (hrefs : ∀ k tag, link.refersTo r k tag → link.LiveAt t k tag) :
    link.Intact (t.put r) := by
  intro q hq hqlive k tag hrefers
  rcases Table.mem_put.mp hq with rfl | ⟨hq, _⟩
  · exact (hrefs k tag hrefers).put hlive hsame
  · exact (h q hq hqlive k tag hrefers).put hlive hsame

/-- A dead row may take the place of one that nothing live points at. -/
theorem Intact.put_dead (h : link.Intact t) (hdead : ¬ link.live r) (hsame : link.Replaces t r)
    (hfree : ∀ q ∈ t.rows, link.live q → ¬ link.refersTo q (key r) (link.tag r)) :
    link.Intact (t.put r) := by
  intro q hq hqlive k tag hrefers
  rcases Table.mem_put.mp hq with rfl | ⟨hq, _⟩
  · exact absurd hqlive hdead
  · have hat := h q hq hqlive k tag hrefers
    apply hat.other
    intro hk
    obtain ⟨x, hx, hxkey, hxtag, hxlive⟩ := hat
    rw [hsame x hx hxlive (hxkey.trans hk)] at hxtag
    rw [hk, ← hxtag] at hrefers
    exact hfree q hq hqlive hrefers

end Linking

end Seance.Lib
