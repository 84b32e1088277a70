import Mathlib.Data.Set.Basic
import Seance.Lib.Table

namespace Seance.Lib

variable {ν κ : Type}

/-- A register offered a value: it keeps its own unless the offered one beats it. -/
def accept (beats : ν → ν → Bool) (cur : Option ν) (v : ν) : Option ν :=
  match cur with
  | none => some v
  | some e => if beats v e then some v else some e

/-- The register after a list of offers. -/
def settle (beats : ν → ν → Bool) (cur : Option ν) (vs : List ν) : Option ν :=
  vs.foldl (accept beats) cur

/-- Whether an offer is taken. -/
def takes (beats : ν → ν → Bool) (cur : Option ν) (v : ν) : Bool :=
  match cur with
  | none => true
  | some e => beats v e

/-- The offers that are taken, in turn. -/
def takenOf (beats : ν → ν → Bool) : Option ν → List ν → List ν
  | _, [] => []
  | cur, v :: vs =>
    if takes beats cur v then v :: takenOf beats (some v) vs else takenOf beats cur vs

section Settle

variable {beats : ν → ν → Bool}

@[simp] theorem settle_nil (cur : Option ν) : settle beats cur [] = cur := rfl

@[simp] theorem settle_cons (cur : Option ν) (v : ν) (vs : List ν) :
    settle beats cur (v :: vs) = settle beats (accept beats cur v) vs := rfl

theorem settle_append (cur : Option ν) (vs us : List ν) :
    settle beats cur (vs ++ us) = settle beats (settle beats cur vs) us := by
  simp [settle]

theorem accept_isSome (cur : Option ν) (v : ν) : ∃ m, accept beats cur v = some m := by
  cases cur with
  | none => exact ⟨v, rfl⟩
  | some e =>
    simp only [accept]
    split
    · exact ⟨v, rfl⟩
    · exact ⟨e, rfl⟩

/-- What a register ends up with was there before or was offered. -/
theorem settle_mem {cur : Option ν} {vs : List ν} {m : ν} (h : settle beats cur vs = some m) :
    cur = some m ∨ m ∈ vs := by
  induction vs generalizing cur with
  | nil => exact .inl h
  | cons v vs ih =>
    rcases ih h with h | h
    · cases cur with
      | none =>
        cases h
        exact .inr List.mem_cons_self
      | some e =>
        simp only [accept] at h
        split at h
        · cases h
          exact .inr List.mem_cons_self
        · exact .inl h
    · exact .inr (List.mem_cons_of_mem _ h)

theorem settle_eq_none {cur : Option ν} {vs : List ν} (h : settle beats cur vs = none) :
    cur = none ∧ vs = [] := by
  induction vs generalizing cur with
  | nil => exact ⟨h, rfl⟩
  | cons v vs ih =>
    obtain ⟨m, hm⟩ : ∃ m, accept beats cur v = some m := accept_isSome cur v
    rw [settle_cons, hm] at h
    cases (ih h).1

/-- Offers none of which beats the value leave it alone. -/
theorem settle_of_beaten {e : ν} {vs : List ν} (h : ∀ v ∈ vs, beats v e = false) :
    settle beats (some e) vs = some e := by
  induction vs with
  | nil => rfl
  | cons v vs ih =>
    have hv : accept beats (some e) v = some e := by simp [accept, h v List.mem_cons_self]
    rw [settle_cons, hv, ih (fun u hu => h u (List.mem_cons_of_mem _ hu))]

/-- A projection that carries "beats" along carries the register along. -/
theorem settle_map {μ : Type} {beats' : μ → μ → Bool} (f : ν → μ)
    (h : ∀ v e, beats' (f v) (f e) = beats v e) (cur : Option ν) (vs : List ν) :
    (settle beats cur vs).map f = settle beats' (cur.map f) (vs.map f) := by
  induction vs generalizing cur with
  | nil => rfl
  | cons v vs ih =>
    have hv : (accept beats cur v).map f = accept beats' (cur.map f) (f v) := by
      cases cur with
      | none => rfl
      | some e =>
        simp only [accept, Option.map_some, h]
        split <;> rfl
    rw [List.map_cons, settle_cons, settle_cons, ih, hv]

end Settle

/-- `m` is in the set and no member comes after it. Where the comparison leaves
ties, all newest members tie. -/
def IsNewest (cmp : ν → ν → Ordering) (versions : Set ν) (m : ν) : Prop :=
  m ∈ versions ∧ ∀ v ∈ versions, (cmp v m).isLE

section Newest

variable {cmp : ν → ν → Ordering} [Std.TransCmp cmp] {beats : ν → ν → Bool}

theorem IsNewest.tie {versions : Set ν} {m m' : ν} (h : IsNewest cmp versions m)
    (h' : IsNewest cmp versions m') : cmp m m' = .eq :=
  Std.OrientedCmp.isLE_antisymm (h'.2 m h.1) (h.2 m' h'.1)

theorem isLE_of_not_isLE {a b : ν} (h : (cmp a b).isLE = false) : (cmp b a).isLE := by
  have hswap : cmp b a = (cmp a b).swap := Std.OrientedCmp.eq_swap
  rw [hswap]
  revert h
  cases cmp a b <;> decide

theorem isLE_of_not_lt {a b : ν} (h : cmp a b ≠ .lt) : (cmp b a).isLE := by
  have hswap : cmp b a = (cmp a b).swap := Std.OrientedCmp.eq_swap
  rw [hswap]
  revert h
  cases cmp a b <;> decide

/-- When "beats" means "comes strictly after" on the versions concerned, a register
ends with the newest of what it held and what it was offered. -/
theorem settle_newest {cur : Option ν} {vs : List ν} {m : ν}
    (hb : ∀ v e, v ∈ vs → cur = some e ∨ e ∈ vs → beats v e = !(cmp v e).isLE)
    (hm : settle beats cur vs = some m) :
    IsNewest cmp {v | cur = some v ∨ v ∈ vs} m := by
  refine ⟨settle_mem hm, ?_⟩
  induction vs generalizing cur with
  | nil =>
    rintro v (hv | hv)
    · rw [settle_nil, hv] at hm
      cases hm
      exact Std.ReflCmp.isLE_rfl
    · cases hv
  | cons u us ih =>
    have hstep : ∃ x, accept beats cur u = some x ∧ (x = u ∨ cur = some x) ∧ (cmp u x).isLE ∧
        ∀ e, cur = some e → (cmp e x).isLE := by
      cases cur with
      | none => exact ⟨u, rfl, .inl rfl, Std.ReflCmp.isLE_rfl, by simp⟩
      | some e =>
        have hue := hb u e List.mem_cons_self (.inl rfl)
        simp only [accept]
        cases hle : (cmp u e).isLE with
        | true =>
          refine ⟨e, by simp [hue, hle], .inr rfl, hle, ?_⟩
          intro e' he
          cases he
          exact Std.ReflCmp.isLE_rfl
        | false =>
          refine ⟨u, by simp [hue, hle], .inl rfl, Std.ReflCmp.isLE_rfl, ?_⟩
          intro e' he
          cases he
          exact isLE_of_not_isLE hle
    obtain ⟨x, hx, horigin, hux, hcur⟩ := hstep
    have hrest := @ih (some x) (fun v e hv he => hb v e (List.mem_cons_of_mem _ hv) (by
        rcases he with he | he
        · cases he
          rcases horigin with rfl | horigin
          · exact .inr List.mem_cons_self
          · exact .inl horigin
        · exact .inr (List.mem_cons_of_mem _ he))) (by rwa [settle_cons, hx] at hm)
    have hxm : (cmp x m).isLE := hrest x (.inl rfl)
    rintro v (hv | hv)
    · exact Std.TransCmp.isLE_trans (hcur v hv) hxm
    · rcases List.mem_cons.mp hv with rfl | hv
      · exact Std.TransCmp.isLE_trans hux hxm
      · exact hrest v (.inr hv)

end Newest

/-- Beats by tag and rank: a value of another tag always gives way. -/
def tagBeats {τ : Type} [DecidableEq τ] (tag : ν → τ) (cmp : ν → ν → Ordering) (v e : ν) : Bool :=
  tag e != tag v || !(cmp v e).isLE

/-- The value survives its offers: none is of another tag or newer, or after the last
of another tag it is offered itself, with older ones before it and none newer after. -/
def Survives {τ : Type} (tag : ν → τ) (cmp : ν → ν → Ordering) (e : ν) (vs : List ν) : Prop :=
  (∀ v ∈ vs, tag v = tag e ∧ (cmp v e).isLE) ∨
  ∃ us v ws ws', vs = us ++ v :: (ws ++ e :: ws') ∧ tag v ≠ tag e ∧
    (∀ w ∈ ws, tag w = tag e ∧ cmp w e = .lt) ∧ ∀ w ∈ ws', tag w = tag e ∧ (cmp w e).isLE

section Tags

variable {τ : Type} [DecidableEq τ] {tag : ν → τ} {cmp : ν → ν → Ordering} {e v : ν}

theorem tagBeats_of_tag (h : tag v = tag e) : tagBeats tag cmp v e = !(cmp v e).isLE := by
  simp [tagBeats, h]

theorem tagBeats_eq_false : tagBeats tag cmp v e = false ↔ tag v = tag e ∧ (cmp v e).isLE := by
  unfold tagBeats
  rw [Bool.or_eq_false_iff, bne_eq_false_iff_eq, Bool.not_eq_false', @eq_comm _ (tag e)]

/-- After an offer the register holds a value of the offered tag. -/
theorem accept_tag (c : ν) :
    ∃ m, accept (tagBeats tag cmp) (some c) v = some m ∧ tag m = tag v := by
  simp only [accept]
  cases hb : tagBeats tag cmp v c with
  | true => exact ⟨v, rfl, rfl⟩
  | false => exact ⟨c, rfl, (tagBeats_eq_false.mp hb).1.symm⟩

theorem settle_some (c : ν) (vs : List ν) :
    ∃ m, settle (tagBeats tag cmp) (some c) vs = some m := by
  cases hm : settle (tagBeats tag cmp) (some c) vs with
  | none => cases (settle_eq_none hm).1
  | some m => exact ⟨m, rfl⟩

theorem exists_last_of_tag {vs : List ν} (h : ∃ v ∈ vs, tag v ≠ tag e) :
    ∃ us v ws, vs = us ++ v :: ws ∧ tag v ≠ tag e ∧ ∀ w ∈ ws, tag w = tag e := by
  induction vs with
  | nil =>
    obtain ⟨v, hv, _⟩ := h
    cases hv
  | cons x xs ih =>
    by_cases hxs : ∃ v ∈ xs, tag v ≠ tag e
    · obtain ⟨us, v, ws, rfl, hv, hws⟩ := ih hxs
      exact ⟨x :: us, v, ws, rfl, hv, hws⟩
    · have hrest : ∀ w ∈ xs, tag w = tag e := fun w hw =>
        of_not_not (fun hne => hxs ⟨w, hw, hne⟩)
      obtain ⟨v, hv, hne⟩ := h
      rcases List.mem_cons.mp hv with rfl | hv
      · exact ⟨[], v, xs, rfl, hne, hrest⟩
      · exact absurd (hrest v hv) hne

variable [Std.TransCmp cmp]

/-- Among offers of its own tag a value survives exactly if none is newer. -/
theorem settle_same_tag {vs : List ν} (hvs : ∀ v ∈ vs, tag v = tag e) :
    settle (tagBeats tag cmp) (some e) vs = some e ↔ ∀ v ∈ vs, (cmp v e).isLE := by
  constructor
  · intro h v hv
    refine (settle_newest (fun u x hu hx => tagBeats_of_tag ?_) h).2 v (.inr hv)
    rcases hx with hx | hx
    · cases hx
      exact hvs u hu
    · exact (hvs u hu).trans (hvs x hx).symm
  · intro h
    exact settle_of_beaten (fun v hv => tagBeats_eq_false.mpr ⟨hvs v hv, h v hv⟩)

theorem lt_of_tag_of_tie {c w : ν} (hc : tag c = tag e → cmp c e = .lt)
    (hb : tagBeats tag cmp w c = false) (hw : tag w = tag e) : cmp w e = .lt := by
  obtain ⟨htag, hle⟩ := tagBeats_eq_false.mp hb
  exact Std.TransCmp.lt_of_isLE_of_lt hle (hc (htag.symm.trans hw))

/-- A register that starts below a value and ends with it was offered it, older ones
before and none newer after. -/
theorem settle_reaches {c : ν} {ws : List ν} (hws : ∀ w ∈ ws, tag w = tag e)
    (hc : tag c = tag e → cmp c e = .lt)
    (h : settle (tagBeats tag cmp) (some c) ws = some e) :
    ∃ xs ys, ws = xs ++ e :: ys ∧ (∀ x ∈ xs, tag x = tag e ∧ cmp x e = .lt) ∧
      ∀ y ∈ ys, tag y = tag e ∧ (cmp y e).isLE := by
  induction ws generalizing c with
  | nil =>
    cases h
    have hrefl : cmp e e = .eq := Std.ReflCmp.compare_self
    rw [hc rfl] at hrefl
    cases hrefl
  | cons w ws ih =>
    obtain ⟨hw, hrest⟩ := List.forall_mem_cons.mp hws
    rw [settle_cons] at h
    cases hb : tagBeats tag cmp w c with
    | true =>
      simp only [accept, hb, if_true] at h
      by_cases he : cmp w e = .lt
      · obtain ⟨xs, ys, rfl, hxs, hys⟩ := ih hrest (fun _ => he) h
        exact ⟨w :: xs, ys, rfl, List.forall_mem_cons.mpr ⟨⟨hw, he⟩, hxs⟩, hys⟩
      · have hnewest : ∀ u ∈ w :: ws, (cmp u e).isLE := by
          intro u hu
          refine (settle_newest (fun x y hx hy => tagBeats_of_tag ?_) h).2 u
            ((List.mem_cons.mp hu).imp (fun heq => by rw [heq]) id)
          rcases hy with hy | hy
          · cases hy
            exact (hrest x hx).trans hw.symm
          · exact (hrest x hx).trans (hrest y hy).symm
        -- a tie with the final value is never replaced, so it is that value
        have hbeaten : settle (tagBeats tag cmp) (some w) ws = some w := by
          refine settle_of_beaten (fun u hu => tagBeats_eq_false.mpr
            ⟨(hrest u hu).trans hw.symm, ?_⟩)
          have hew : (cmp e w).isLE := isLE_of_not_lt he
          exact Std.TransCmp.isLE_trans (hnewest u (List.mem_cons_of_mem _ hu)) hew
        rw [hbeaten] at h
        cases h
        exact ⟨[], ws, rfl, by simp, fun y hy =>
          ⟨hrest y hy, hnewest y (List.mem_cons_of_mem _ hy)⟩⟩
    | false =>
      simp only [accept, hb, Bool.false_eq_true, if_false] at h
      obtain ⟨xs, ys, rfl, hxs, hys⟩ := ih hrest hc h
      exact ⟨w :: xs, ys, rfl,
        List.forall_mem_cons.mpr ⟨⟨hw, lt_of_tag_of_tie hc hb hw⟩, hxs⟩, hys⟩

/-- A value outlives its offers exactly if it survives them. -/
theorem settle_eq_self_iff {vs : List ν} :
    settle (tagBeats tag cmp) (some e) vs = some e ↔ Survives tag cmp e vs := by
  constructor
  · intro h
    by_cases hvs : ∀ v ∈ vs, tag v = tag e
    · exact .inl (fun v hv => ⟨hvs v hv, (settle_same_tag hvs).mp h v hv⟩)
    · obtain ⟨us, v, ws, rfl, hv, hws⟩ := exists_last_of_tag (by simpa using hvs)
      obtain ⟨c, hc⟩ : ∃ c, settle (tagBeats tag cmp) (some e) us = some c := settle_some e us
      obtain ⟨m, hm, htag⟩ : ∃ m, accept (tagBeats tag cmp) (some c) v = some m ∧
          tag m = tag v := accept_tag c
      rw [settle_append, hc, settle_cons, hm] at h
      obtain ⟨xs, ys, rfl, hxs, hys⟩ :=
        settle_reaches hws (fun he => absurd (htag.symm.trans he) hv) h
      exact .inr ⟨us, v, xs, ys, rfl, hv, hxs, hys⟩
  · rintro (h | ⟨us, v, ws, ws', rfl, hv, hws, hws'⟩)
    · exact settle_of_beaten (fun v hv => tagBeats_eq_false.mpr (h v hv))
    · obtain ⟨c, hc⟩ : ∃ c, settle (tagBeats tag cmp) (some e) us = some c := settle_some e us
      obtain ⟨m, hm, htag⟩ : ∃ m, accept (tagBeats tag cmp) (some c) v = some m ∧
          tag m = tag v := accept_tag c
      obtain ⟨m', hm'⟩ : ∃ m', settle (tagBeats tag cmp) (some m) ws = some m' := settle_some m ws
      rw [settle_append, hc, settle_cons, hm, settle_append, hm', settle_cons]
      have hbeats : tagBeats tag cmp e m' = true := by
        rw [← Bool.not_eq_false]
        intro hb
        obtain ⟨htag', hle⟩ := tagBeats_eq_false.mp hb
        rcases settle_mem hm' with hmm | hmem
        · cases hmm
          exact hv (htag.symm.trans htag'.symm)
        · have hlt := (hws m' hmem).2
          have hrefl : cmp m' m' = .eq := Std.ReflCmp.compare_self
          rw [Std.TransCmp.lt_of_lt_of_isLE hlt hle] at hrefl
          cases hrefl
      simp only [accept, hbeats, if_true]
      exact settle_of_beaten (fun w hw => tagBeats_eq_false.mpr (hws' w hw))

end Tags

section Displaced

variable {τ : Type} [DecidableEq τ] {tag : ν → τ} {cmp : ν → ν → Ordering} {beats : ν → ν → Bool}
  {e x m : ν} {vs before run : List ν}

theorem tagBeats_of_ne {v : ν} (h : tag v ≠ tag e) : tagBeats tag cmp v e = true := by
  unfold tagBeats
  rw [bne_iff_ne.mpr h.symm, Bool.true_or]

/-- Where an offer is taken the register holds what the offers before it left there. -/
theorem takenOf_split {P : ν → ν → Prop} (hP : ∀ x v, P x v → beats v x = true) :
    (∃ us v ws, takenOf beats (some e) vs = us ++ v :: ws ∧ P (us.getLastD e) v) ↔
      ∃ us v ws x, vs = us ++ v :: ws ∧ settle beats (some e) us = some x ∧ P x v := by
  induction vs generalizing e with
  | nil =>
    refine iff_of_false ?_ ?_
    · rintro ⟨us, v, ws, htaken, _⟩
      cases us <;> cases htaken
    · rintro ⟨us, v, ws, x, hvs, _⟩
      cases us <;> cases hvs
  | cons a vs ih =>
    cases hb : beats a e with
    | true =>
      have htaken : takenOf beats (some e) (a :: vs) = a :: takenOf beats (some a) vs := by
        simp [takenOf, takes, hb]
      have haccept : accept beats (some e) a = some a := by simp [accept, hb]
      rw [htaken]
      constructor
      · rintro ⟨us, v, ws, hsplit, hv⟩
        cases us with
        | nil =>
          cases hsplit
          exact ⟨[], a, vs, e, rfl, rfl, hv⟩
        | cons u us =>
          obtain ⟨rfl, hrest⟩ := List.cons.inj hsplit
          rw [List.getLastD_cons] at hv
          obtain ⟨us, v, ws, x, rfl, hx, hv⟩ := ih.mp ⟨us, v, ws, hrest, hv⟩
          exact ⟨a :: us, v, ws, x, rfl, by rwa [settle_cons, haccept], hv⟩
      · rintro ⟨us, v, ws, x, hsplit, hx, hv⟩
        cases us with
        | nil =>
          cases hsplit
          cases hx
          exact ⟨[], a, _, rfl, hv⟩
        | cons u us =>
          obtain ⟨rfl, rfl⟩ := List.cons.inj hsplit
          rw [settle_cons, haccept] at hx
          obtain ⟨us, v, ws, hrest, hv⟩ := ih.mpr ⟨us, v, ws, x, rfl, hx, hv⟩
          exact ⟨a :: us, v, ws, by rw [hrest, List.cons_append], by rwa [List.getLastD_cons]⟩
    | false =>
      have htaken : takenOf beats (some e) (a :: vs) = takenOf beats (some e) vs := by
        simp [takenOf, takes, hb]
      have haccept : accept beats (some e) a = some e := by simp [accept, hb]
      rw [htaken, ih]
      constructor
      · rintro ⟨us, v, ws, x, rfl, hx, hv⟩
        exact ⟨a :: us, v, ws, x, rfl, by rwa [settle_cons, haccept], hv⟩
      · rintro ⟨us, v, ws, x, hsplit, hx, hv⟩
        cases us with
        | nil =>
          cases hsplit
          cases hx
          exact absurd (hP _ _ hv) (by rw [hb]; exact Bool.false_ne_true)
        | cons u us =>
          obtain ⟨rfl, rfl⟩ := List.cons.inj hsplit
          rw [settle_cons, haccept] at hx
          exact ⟨us, v, ws, x, rfl, hx, hv⟩

/-- After offers the register holds a value of the tag of the last one. -/
theorem settle_concat_tag {us : List ν} {v : ν}
    (h : settle (tagBeats tag cmp) (some e) (us ++ [v]) = some x) : tag x = tag v := by
  obtain ⟨c, hc⟩ : ∃ c, settle (tagBeats tag cmp) (some e) us = some c := settle_some e us
  obtain ⟨y, hy, htag⟩ : ∃ y, accept (tagBeats tag cmp) (some c) v = some y ∧ tag y = tag v :=
    accept_tag c
  rw [settle_append, hc, settle_cons, hy] at h
  cases h
  exact htag

variable (tag e) in
/-- Any offers end with an unbroken run of the tag, which may be empty. -/
theorem exists_last_run (us : List ν) : ∃ before run, us = before ++ run ∧
    (∀ u ∈ before.getLast?, tag u ≠ tag e) ∧ ∀ u ∈ run, tag u = tag e := by
  by_cases hall : ∀ u ∈ us, tag u = tag e
  · exact ⟨[], us, rfl, by simp, hall⟩
  · obtain ⟨before, v, run, rfl, hv, hrun⟩ := exists_last_of_tag (by simpa using hall)
    exact ⟨before ++ [v], run, by simp, by simpa using hv, hrun⟩

/-- One of another tag is offered when `m` is the newest value of the tag of `e` so far: of the
unbroken run of such values just before it, where `e` is the first of all. -/
def Displaced {τ : Type} (tag : ν → τ) (cmp : ν → ν → Ordering) (e : ν) (vs : List ν) (m : ν) :
    Prop :=
  ∃ before run v after, vs = before ++ run ++ v :: after ∧
    (∀ u ∈ before.getLast?, tag u ≠ tag e) ∧ (∀ u ∈ run, tag u = tag e) ∧ tag v ≠ tag e ∧
    IsNewest cmp {u | (before = [] ∧ u = e) ∨ u ∈ run} m

variable [Std.TransCmp cmp]

/-- Of a last run of its tag the register holds the newest. -/
theorem settle_last_run (hbefore : ∀ u ∈ before.getLast?, tag u ≠ tag e)
    (hrun : ∀ u ∈ run, tag u = tag e)
    (hx : settle (tagBeats tag cmp) (some e) (before ++ run) = some x) (htag : tag x = tag e) :
    IsNewest cmp {u | (before = [] ∧ u = e) ∨ u ∈ run} x := by
  rcases List.eq_nil_or_concat' before with rfl | ⟨before, b, rfl⟩
  · have hset : {w | (([] : List ν) = [] ∧ w = e) ∨ w ∈ run} =
        {w | some e = some w ∨ w ∈ run} := by
      ext w
      simp [@eq_comm _ e w]
    rw [hset]
    refine settle_newest (fun v c hv hc => tagBeats_of_tag ?_) hx
    rcases hc with hc | hc
    · cases hc
      exact hrun v hv
    · exact (hrun v hv).trans (hrun c hc).symm
  · have hb : tag b ≠ tag e := hbefore b (by simp)
    cases run with
    | nil =>
      rw [List.append_nil] at hx
      exact absurd ((settle_concat_tag hx).symm.trans htag) hb
    | cons u run =>
      obtain ⟨hu, hrest⟩ := List.forall_mem_cons.mp hrun
      obtain ⟨c, hc⟩ : ∃ c, settle (tagBeats tag cmp) (some e) (before ++ [b]) = some c :=
        settle_some e _
      have hother : tag u ≠ tag c := by
        rw [hu, settle_concat_tag hc]
        exact hb.symm
      rw [settle_append, hc, settle_cons] at hx
      simp only [accept, tagBeats_of_ne hother, if_true] at hx
      have hset : {w | (before ++ [b] = [] ∧ w = e) ∨ w ∈ u :: run} =
          {w | some u = some w ∨ w ∈ run} := by
        ext w
        simp [@eq_comm _ u w]
      rw [hset]
      refine settle_newest (fun v c hv hc => tagBeats_of_tag ?_) hx
      rcases hc with hc | hc
      · cases hc
        exact (hrest v hv).trans hu.symm
      · exact (hrest v hv).trans (hrest c hc).symm

variable (tag e vs) in
/-- What a register gives up for one of another tag shows in its offers. -/
theorem taken_displaced_iff {Q : ν → Prop} (hQ : ∀ a b, cmp a b = .eq → Q a → Q b) :
    (∃ us v ws, takenOf (tagBeats tag cmp) (some e) vs = us ++ v :: ws ∧
        (tag (us.getLastD e) = tag e ∧ tag v ≠ tag e ∧ Q (us.getLastD e))) ↔
      ∃ m, Displaced tag cmp e vs m ∧ Q m := by
  rw [takenOf_split (P := fun x v => tag x = tag e ∧ tag v ≠ tag e ∧ Q x)
    fun x v h => tagBeats_of_ne fun he => h.2.1 (he.trans h.1)]
  constructor
  · rintro ⟨us, v, ws, x, rfl, hx, htag, hv, hq⟩
    obtain ⟨before, run, rfl, hbefore, hrun⟩ := exists_last_run tag e us
    exact ⟨x, ⟨before, run, v, ws, rfl, hbefore, hrun, hv,
      settle_last_run hbefore hrun hx htag⟩, hq⟩
  · rintro ⟨m, ⟨before, run, v, after, rfl, hbefore, hrun, hv, hm⟩, hq⟩
    obtain ⟨x, hx⟩ : ∃ x, settle (tagBeats tag cmp) (some e) (before ++ run) = some x :=
      settle_some e _
    have htag : tag x = tag e := by
      rcases List.eq_nil_or_concat' run with rfl | ⟨run, u, rfl⟩
      · obtain ⟨rfl, _⟩ : before = [] ∧ m = e := hm.1.resolve_right List.not_mem_nil
        cases hx
        rfl
      · rw [← List.append_assoc] at hx
        exact (settle_concat_tag hx).trans (hrun u (by simp))
    exact ⟨before ++ run, v, after, x, rfl, hx, htag, hv,
      hQ m x (hm.tie (settle_last_run hbefore hrun hx htag)) hq⟩

end Displaced

namespace Table

variable {ρ : Type} {key : ρ → κ} [DecidableEq κ] (beats : ρ → ρ → Bool)

/-- A row offered to a table: written unless the row with its key stands. -/
def offer (t : Table key) (r : ρ) : Table key :=
  match t.find? (key r) with
  | none => t.put r
  | some e => if beats r e then t.put r else t

/-- The rows of a list that are written when they are offered in turn. -/
def taken (t : Table key) : List ρ → List ρ
  | [] => []
  | r :: rs =>
    match t.find? (key r) with
    | none => r :: taken (t.put r) rs
    | some e => if beats r e then r :: taken (t.put r) rs else taken t rs

def offerAll (t : Table key) (rs : List ρ) : Table key := rs.foldl (offer beats) t

@[simp] theorem offerAll_nil (t : Table key) : t.offerAll beats [] = t := rfl

@[simp] theorem offerAll_cons (t : Table key) (r : ρ) (rs : List ρ) :
    t.offerAll beats (r :: rs) = (t.offer beats r).offerAll beats rs := rfl

theorem find?_offer (t : Table key) (r : ρ) (k : κ) :
    (t.offer beats r).find? k =
      if key r = k then accept beats (t.find? k) r else t.find? k := by
  unfold offer
  by_cases hk : key r = k
  · subst hk
    rw [if_pos rfl]
    cases hf : t.find? (key r) with
    | none => simp [accept]
    | some e =>
      simp only [accept]
      split
      · simp
      · exact hf
  · rw [if_neg hk]
    have hk' : ¬ k = key r := fun he => hk he.symm
    cases t.find? (key r) with
    | none => simp [hk']
    | some e =>
      dsimp only
      split
      · simp [hk']
      · rfl

/-- Offered one after another, the rows of each key meet in a register of their own. -/
theorem find?_offerAll (t : Table key) (rs : List ρ) (k : κ) :
    (t.offerAll beats rs).find? k =
      settle beats (t.find? k) (rs.filter (fun r => decide (key r = k))) := by
  induction rs generalizing t with
  | nil => rfl
  | cons r rs ih =>
    rw [offerAll_cons, ih, find?_offer]
    by_cases hk : key r = k
    · simp [hk]
    · simp [hk]

/-- Offered one after another, the rows of each key are taken as by their own register. -/
theorem filter_taken (t : Table key) (rs : List ρ) (k : κ) :
    (taken beats t rs).filter (fun r => decide (key r = k)) =
      takenOf beats (t.find? k) (rs.filter (fun r => decide (key r = k))) := by
  induction rs generalizing t with
  | nil => rfl
  | cons r rs ih =>
    by_cases hk : key r = k
    · subst hk
      rw [List.filter_cons_of_pos (by simp), taken, takenOf]
      cases hf : t.find? (key r) with
      | none => simp [takes, ih]
      | some e =>
        dsimp only
        cases hb : beats r e with
        | true => simp [takes, hb, ih]
        | false => simp [takes, hb, ih, hf]
    · have hk' : ¬ k = key r := fun he => hk he.symm
      rw [List.filter_cons_of_neg (by simpa using hk), taken]
      cases hf : t.find? (key r) with
      | none => simp [hk, hk', ih]
      | some e =>
        dsimp only
        cases hb : beats r e with
        | true => simp [hk, hk', ih]
        | false => simp [ih]

theorem taken_cons_put {t : Table key} {r : ρ} (rs : List ρ)
    (h : ∀ e, t.find? (key r) = some e → beats r e = true) :
    taken beats t (r :: rs) = r :: taken beats (t.put r) rs ∧ t.offer beats r = t.put r := by
  rw [taken, offer]
  cases hf : t.find? (key r) with
  | none => exact ⟨rfl, rfl⟩
  | some e => simp [h e hf]

theorem taken_cons_keep {t : Table key} {r e : ρ} (rs : List ρ)
    (hf : t.find? (key r) = some e) (h : beats r e = false) :
    taken beats t (r :: rs) = taken beats t rs ∧ t.offer beats r = t := by
  rw [taken, offer, hf]
  simp [h]

end Table

end Seance.Lib
