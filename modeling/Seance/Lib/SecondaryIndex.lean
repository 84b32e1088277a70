import Mathlib.Logic.Function.Basic
import Seance.Lib.Map
import Seance.Lib.Select

namespace Seance.Lib

variable {κ ε τ ρ : Type}

section Listing

variable (cmp : ρ → ρ → Ordering)

/-- The references with a property, in order; no list stands where there are none. -/
def ListedAs (P : ρ → Prop) : Option (List ρ) → Prop
  | none => ∀ r, ¬ P r
  | some refs => refs ≠ [] ∧ refs.Pairwise (fun a b => cmp a b = .lt) ∧ ∀ r, r ∈ refs ↔ P r

/-- A list, or nothing where it is empty. -/
def nonempty (refs : List ρ) : Option (List ρ) := if refs.isEmpty then none else some refs

variable {cmp} {P Q : ρ → Prop} {found other : Option (List ρ)} {r : ρ}

theorem ListedAs.congr (h : ListedAs cmp P found) (hPQ : ∀ r, P r ↔ Q r) :
    ListedAs cmp Q found := by
  cases found with
  | none => exact fun r hr => h r ((hPQ r).mpr hr)
  | some refs => exact ⟨h.1, h.2.1, fun r => (h.2.2 r).trans (hPQ r)⟩

/-- A list without order or duplicates to keep. -/
theorem ListedAs.mem (h : ListedAs cmp P found) : r ∈ found.getD [] ↔ P r := by
  cases found with
  | none => exact ⟨nofun, fun hr => absurd hr (h r)⟩
  | some refs => exact h.2.2 r

theorem ListedAs.sorted (h : ListedAs cmp P found) :
    (found.getD []).Pairwise (fun a b => cmp a b = .lt) := by
  cases found with
  | none => exact List.Pairwise.nil
  | some refs => exact h.2.1

theorem listedAs_nonempty {refs : List ρ} (hsorted : refs.Pairwise (fun a b => cmp a b = .lt))
    (hmem : ∀ r, r ∈ refs ↔ P r) : ListedAs cmp P (nonempty refs) := by
  unfold nonempty
  cases refs with
  | nil => exact fun r hr => List.not_mem_nil ((hmem r).mpr hr)
  | cons first rest => exact ⟨nofun, hsorted, hmem⟩

/-- References taken out by a test. -/
theorem ListedAs.filter (h : ListedAs cmp P found) (test : ρ → Bool) :
    ListedAs cmp (fun r => P r ∧ test r = true)
      (found.bind (fun refs => nonempty (refs.filter test))) := by
  cases found with
  | none => exact fun r hr => h r hr.1
  | some refs =>
    refine listedAs_nonempty (h.2.1.filter test) (fun r => ?_)
    rw [List.mem_filter, h.2.2 r]

variable [Std.TransCmp cmp]

/-- Two lists of one property are one list. -/
theorem ListedAs.unique (h : ListedAs cmp P found) (h' : ListedAs cmp P other) :
    found = other := by
  have hnone : ∀ {refs : List ρ}, ListedAs cmp P none → ¬ ListedAs cmp P (some refs) := by
    intro refs hno hsome
    obtain ⟨r, hr⟩ := List.exists_mem_of_ne_nil refs hsome.1
    exact hno r ((hsome.2.2 r).mp hr)
  cases found with
  | none =>
    cases other with
    | none => rfl
    | some refs => exact absurd h' (hnone h)
  | some refs =>
    cases other with
    | none => exact absurd h (hnone h')
    | some refs' =>
      have hasymm : ∀ a b : ρ, cmp a b = .lt → ¬ cmp b a = .lt := by
        intro a b hab hba
        have hswap : cmp b a = (cmp a b).swap := Std.OrientedCmp.eq_swap
        rw [hswap, hab] at hba
        cases hba
      have hnodup : ∀ {l : List ρ}, l.Pairwise (fun a b => cmp a b = .lt) → l.Nodup := by
        intro l hl
        refine hl.imp ?_
        rintro a _ hab rfl
        exact hasymm a a hab hab
      have hperm : refs.Perm refs' := (List.perm_ext_iff_of_nodup (hnodup h.2.1) (hnodup h'.2.1)).mpr
        (fun r => (h.2.2 r).trans (h'.2.2 r).symm)
      exact congrArg some (hperm.eq_of_pairwise
        (fun a b _ _ hab hba => absurd hba (hasymm a b hab)) h.2.1 h'.2.1)

/-- One more reference, which ties with none of those listed. -/
theorem ListedAs.insert (h : ListedAs cmp P found) (hr : ∀ q, P q → cmp q r ≠ .eq) :
    ListedAs cmp (fun q => P q ∨ q = r) (some (orderBy cmp (found.getD [] ++ [r]))) := by
  have hmem : ∀ q, q ∈ orderBy cmp (found.getD [] ++ [r]) ↔ P q ∨ q = r := by
    intro q
    rw [mem_orderBy, List.mem_append, h.mem, List.mem_singleton]
  have hapart : (found.getD [] ++ [r]).Pairwise (fun a b => cmp a b ≠ .eq) := by
    rw [List.pairwise_append]
    refine ⟨h.sorted.imp (fun hab => by rw [hab]; decide), List.pairwise_singleton _ _, ?_⟩
    intro q hq last hlast
    rw [List.mem_singleton.mp hlast]
    exact hr q (h.mem.mp hq)
  have hsymm : ∀ {a b : ρ}, cmp a b ≠ .eq → cmp b a ≠ .eq :=
    fun hab hba => hab (Std.OrientedCmp.eq_symm hba)
  have hordered := (orderBy_perm cmp (found.getD [] ++ [r])).symm.pairwise hapart hsymm
  refine ⟨?_, ?_, hmem⟩
  · intro hnil
    have hlast := (hmem r).mpr (.inr rfl)
    rw [hnil] at hlast
    cases hlast
  · refine (orderBy_pairwise cmp _).imp₂ ?_ hordered
    intro a b hle hne
    cases hab : cmp a b with
    | lt => rfl
    | eq => exact absurd hab hne
    | gt =>
      rw [hab] at hle
      cases hle

end Listing

section Filing

variable [DecidableEq τ] (cmp : ρ → ρ → Ordering)

/-- A reference put into the list of a tag, which is then sorted again. -/
def fileUnder (r : ρ) (index : Map τ (List ρ)) (t : τ) : Map τ (List ρ) :=
  index.insert t (orderBy cmp ((index.get t).getD [] ++ [r]))

/-- The references that pass the test taken out of the list of a tag; an empty list goes. -/
def unfileUnder (own : ρ → Bool) (index : Map τ (List ρ)) (t : τ) : Map τ (List ρ) :=
  match index.get t with
  | none => index
  | some refs =>
    let kept := refs.filter (fun r => !own r)
    if kept.isEmpty then index.remove t else index.insert t kept

variable {cmp}

theorem get_unfileUnder (own : ρ → Bool) (index : Map τ (List ρ)) (t q : τ) :
    (unfileUnder own index t).get q =
      if q = t then (index.get t).bind (fun refs => nonempty (refs.filter (fun r => !own r)))
      else index.get q := by
  unfold unfileUnder
  split
  · rename_i h
    split
    · rename_i hq
      rw [hq, h]
      rfl
    · rfl
  · rename_i refs h
    rw [h, Option.bind_some, nonempty]
    dsimp only
    split
    · rw [Map.get_remove]
    · rw [Map.get_insert]

/-- Filing under several tags changes the list of each of them once. -/
theorem get_foldl_fileUnder (r : ρ) {tags : List τ} (hn : tags.Nodup) (index : Map τ (List ρ))
    (t : τ) : (tags.foldl (fileUnder cmp r) index).get t =
      if t ∈ tags then some (orderBy cmp ((index.get t).getD [] ++ [r])) else index.get t := by
  induction tags generalizing index with
  | nil => simp
  | cons first rest ih =>
    obtain ⟨hfirst, hrest⟩ := List.nodup_cons.mp hn
    rw [List.foldl_cons, ih hrest, fileUnder, Map.get_insert]
    by_cases ht : t = first
    · subst ht
      simp [hfirst]
    · simp [ht]

theorem get_foldl_unfileUnder (own : ρ → Bool) {tags : List τ} (hn : tags.Nodup)
    (index : Map τ (List ρ)) (t : τ) : (tags.foldl (unfileUnder own) index).get t =
      if t ∈ tags then (index.get t).bind (fun refs => nonempty (refs.filter (fun r => !own r)))
      else index.get t := by
  induction tags generalizing index with
  | nil => simp
  | cons first rest ih =>
    obtain ⟨hfirst, hrest⟩ := List.nodup_cons.mp hn
    rw [List.foldl_cons, ih hrest, get_unfileUnder]
    by_cases ht : t = first
    · subst ht
      simp [hfirst]
    · simp [ht]

end Filing

section Indexing

variable [DecidableEq τ] (cmp : ρ → ρ → Ordering) (ref : ε → ρ) (tags : ε → List τ)

/-- The reference of an entry of the primary map that carries the tag. -/
def Tagged (primary : κ → Option ε) (t : τ) (r : ρ) : Prop :=
  ∃ k e, primary k = some e ∧ t ∈ tags e ∧ ref e = r

/-- A secondary index: under each tag the references of the entries that carry it. -/
def Indexes (primary : κ → Option ε) (index : Map τ (List ρ)) : Prop :=
  ∀ t, ListedAs cmp (Tagged ref tags primary t) (index.get t)

variable {cmp ref tags} {primary : κ → Option ε} {index : Map τ (List ρ)} {k : κ} {e : ε}

theorem indexes_empty : Indexes cmp ref tags (fun _ : κ => none) .empty := by
  rintro t r ⟨k, e, hk, _⟩
  cases hk

/-- Two indexes of one primary map list the same references in the same order. -/
theorem Indexes.unique [Std.TransCmp cmp] {other : Map τ (List ρ)}
    (h : Indexes cmp ref tags primary index) (h' : Indexes cmp ref tags primary other) (t : τ) :
    index.get t = other.get t := (h t).unique (h' t)

variable [DecidableEq κ]

/-- An entry leaves the primary map and the lists of its tags. The test finds, among the
references under those tags, the one of this entry. -/
theorem Indexes.unfile (h : Indexes cmp ref tags primary index) (hk : primary k = some e)
    (hn : (tags e).Nodup) (own : ρ → Bool)
    (hown : ∀ k' e' t, primary k' = some e' → t ∈ tags e → t ∈ tags e' →
      (own (ref e') = true ↔ k' = k)) :
    Indexes cmp ref tags (Function.update primary k none)
      ((tags e).foldl (unfileUnder own) index) := by
  intro t
  rw [get_foldl_unfileUnder own hn]
  by_cases ht : t ∈ tags e
  · rw [if_pos ht]
    refine ((h t).filter (fun r => !own r)).congr (fun r => ?_)
    constructor
    · rintro ⟨⟨k', e', hk', ht', rfl⟩, hnot⟩
      have hne : k' ≠ k := fun he => by simp [(hown k' e' t hk' ht ht').mpr he] at hnot
      exact ⟨k', e', by rwa [Function.update_of_ne hne], ht', rfl⟩
    · rintro ⟨k', e', hk', ht', rfl⟩
      have hne : k' ≠ k := by
        rintro rfl
        rw [Function.update_self] at hk'
        cases hk'
      rw [Function.update_of_ne hne] at hk'
      refine ⟨⟨k', e', hk', ht', rfl⟩, ?_⟩
      simpa using fun ho => hne ((hown k' e' t hk' ht ht').mp ho)
  · rw [if_neg ht]
    refine (h t).congr (fun r => ?_)
    constructor
    · rintro ⟨k', e', hk', ht', hr⟩
      have hne : k' ≠ k := by
        rintro rfl
        cases hk.symm.trans hk'
        exact ht ht'
      exact ⟨k', e', by rwa [Function.update_of_ne hne], ht', hr⟩
    · rintro ⟨k', e', hk', ht', hr⟩
      have hne : k' ≠ k := by
        rintro rfl
        rw [Function.update_self] at hk'
        cases hk'
      rw [Function.update_of_ne hne] at hk'
      exact ⟨k', e', hk', ht', hr⟩

/-- An entry comes into the primary map and into the lists of its tags. -/
theorem Indexes.file [Std.TransCmp cmp] (h : Indexes cmp ref tags primary index)
    (hk : primary k = none) (hn : (tags e).Nodup)
    (hne : ∀ k' e' t, primary k' = some e' → t ∈ tags e → t ∈ tags e' →
      cmp (ref e') (ref e) ≠ .eq) :
    Indexes cmp ref tags (Function.update primary k (some e))
      ((tags e).foldl (fileUnder cmp (ref e)) index) := by
  intro t
  have hold : ∀ k' e', primary k' = some e' → Function.update primary k (some e) k' = some e' := by
    intro k' e' hk'
    have hkk : k' ≠ k := by
      rintro rfl
      cases hk.symm.trans hk'
    rwa [Function.update_of_ne hkk]
  have hcases : ∀ k' e', Function.update primary k (some e) k' = some e' →
      primary k' = some e' ∨ e' = e := by
    intro k' e' hk'
    by_cases hkk : k' = k
    · rw [hkk, Function.update_self] at hk'
      exact .inr (Option.some.inj hk').symm
    · rw [Function.update_of_ne hkk] at hk'
      exact .inl hk'
  rw [get_foldl_fileUnder (ref e) hn]
  by_cases ht : t ∈ tags e
  · rw [if_pos ht]
    refine ((h t).insert (r := ref e) ?_).congr (fun r => ?_)
    · rintro q ⟨k', e', hk', ht', rfl⟩
      exact hne k' e' t hk' ht ht'
    · constructor
      · rintro (⟨k', e', hk', ht', hr⟩ | rfl)
        · exact ⟨k', e', hold k' e' hk', ht', hr⟩
        · exact ⟨k, e, Function.update_self .., ht, rfl⟩
      · rintro ⟨k', e', hk', ht', hr⟩
        rcases hcases k' e' hk' with hk' | rfl
        · exact .inl ⟨k', e', hk', ht', hr⟩
        · exact .inr hr.symm
  · rw [if_neg ht]
    refine (h t).congr (fun r => ?_)
    constructor
    · rintro ⟨k', e', hk', ht', hr⟩
      exact ⟨k', e', hold k' e' hk', ht', hr⟩
    · rintro ⟨k', e', hk', ht', hr⟩
      rcases hcases k' e' hk' with hk' | rfl
      · exact ⟨k', e', hk', ht', hr⟩
      · exact absurd ht' ht

end Indexing

end Seance.Lib
