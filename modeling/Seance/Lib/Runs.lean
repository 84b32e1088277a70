import Mathlib.Data.List.Basic
import Mathlib.Data.List.Induction

namespace Seance.Lib

section Steps

variable {σ α : Type}

/-- A property of every state of a run that goes on as long as its steps succeed. -/
def Always (step : σ → α → Option σ) (I : σ → Prop) : σ → List α → Prop
  | s, [] => I s
  | s, a :: rest => I s ∧ ∀ t, step s a = some t → Always step I t rest

/-- A condition on every step of such a run, read in the state the step starts from. -/
def EveryStep (step : σ → α → Option σ) (ok : σ → α → Prop) : σ → List α → Prop
  | _, [] => True
  | s, a :: rest => ∀ t, step s a = some t → ok s a ∧ EveryStep step ok t rest

instance EveryStep.decidable (step : σ → α → Option σ) (ok : σ → α → Prop)
    [∀ s a, Decidable (ok s a)] :
    ∀ (s : σ) (acts : List α), Decidable (EveryStep step ok s acts)
  | _, [] => isTrue trivial
  | s, a :: rest =>
    match h : step s a with
    | none => isTrue fun t ht => by simp [h] at ht
    | some t =>
      have := EveryStep.decidable step ok t rest
      decidable_of_iff (ok s a ∧ EveryStep step ok t rest)
        ⟨fun hok u hu => Option.some.inj (h.symm.trans hu) ▸ hok, fun hevery => hevery t h⟩

variable {step : σ → α → Option σ} {I K : σ → Prop} {ok : σ → α → Prop}

theorem Always.start {s : σ} {acts : List α} (h : Always step I s acts) : I s := by
  cases acts with
  | nil => exact h
  | cons a rest => exact h.1

/-- Where no step fails, the property holds at the end too. -/
theorem Always.final {f : σ → α → σ} {s : σ} {acts : List α}
    (h : Always (fun s a => some (f s a)) I s acts) : I (acts.foldl f s) := by
  induction acts generalizing s with
  | nil => exact h
  | cons a rest ih => exact ih (h.2 _ rfl)

theorem EveryStep.and {ok good : σ → α → Prop} {s : σ} {acts : List α}
    (h : EveryStep step ok s acts) (h' : EveryStep step good s acts) :
    EveryStep step (fun s a => ok s a ∧ good s a) s acts := by
  induction acts generalizing s with
  | nil => trivial
  | cons a rest ih =>
    intro t ht
    obtain ⟨hok, hrest⟩ := h t ht
    obtain ⟨hgood, hrest'⟩ := h' t ht
    exact ⟨⟨hok, hgood⟩, ih hrest hrest'⟩

/-- Steps that meet a condition do well, and keep the invariant they do well by. -/
theorem EveryStep.keeps {good : σ → α → Prop}
    (hstep : ∀ s a t, K s → step s a = some t → ok s a → good s a ∧ K t) {s : σ} {acts : List α}
    (h : K s) (hok : EveryStep step ok s acts) : EveryStep step good s acts := by
  induction acts generalizing s with
  | nil => trivial
  | cons a rest ih =>
    intro t ht
    obtain ⟨hok, hrest⟩ := hok t ht
    obtain ⟨hgood, hK⟩ := hstep s a t h ht hok
    exact ⟨hgood, ih hK hrest⟩

/-- A run whose steps meet a condition that keeps the invariant stays within it. -/
theorem EveryStep.always (hK : ∀ s, K s → I s)
    (hstep : ∀ s a t, K s → step s a = some t → ok s a → K t) {s : σ} {acts : List α} (h : K s)
    (hok : EveryStep step ok s acts) : Always step I s acts := by
  induction acts generalizing s with
  | nil => exact hK s h
  | cons a rest ih =>
    refine ⟨hK s h, fun t ht => ?_⟩
    obtain ⟨hok, hrest⟩ := hok t ht
    exact ih (hstep s a t h ht hok) hrest

/-- Where a step from a state with the invariant keeps the property exactly under a condition, and
then the invariant too, the property holds all along exactly if the condition does. -/
theorem always_iff (hK : ∀ s, K s → I s)
    (hstep : ∀ s a t, K s → step s a = some t → (I t ↔ ok s a) ∧ (ok s a → K t)) {s : σ}
    (h : K s) (acts : List α) : Always step I s acts ↔ EveryStep step ok s acts := by
  induction acts generalizing s with
  | nil => exact ⟨fun _ => trivial, fun _ => hK s h⟩
  | cons a rest ih =>
    constructor
    · rintro ⟨_, hrest⟩ t ht
      have hok := (hstep s a t h ht).1.mp (hrest t ht).start
      exact ⟨hok, (ih ((hstep s a t h ht).2 hok)).mp (hrest t ht)⟩
    · intro hevery
      refine ⟨hK s h, fun t ht => ?_⟩
      obtain ⟨hok, hrest⟩ := hevery t ht
      exact (ih ((hstep s a t h ht).2 hok)).mpr hrest

/-- The same, cut at any turn of the run. -/
theorem always_run {s t : σ} {acts more : List α} (h : Always step I s (acts ++ more))
    (hrun : acts.foldlM step s = some t) : Always step I t more := by
  induction acts generalizing s with
  | nil =>
    cases hrun
    exact h
  | cons a rest ih =>
    rw [List.foldlM_cons, Option.bind_eq_bind, Option.bind_eq_some_iff] at hrun
    obtain ⟨u, hu, hrun⟩ := hrun
    exact ih (h.2 u hu) hrun

theorem everyStep_run {s t : σ} {acts more : List α} (h : EveryStep step ok s (acts ++ more))
    (hrun : acts.foldlM step s = some t) : EveryStep step ok t more := by
  induction acts generalizing s with
  | nil =>
    cases hrun
    exact h
  | cons a rest ih =>
    rw [List.foldlM_cons, Option.bind_eq_bind, Option.bind_eq_some_iff] at hrun
    obtain ⟨u, hu, hrun⟩ := hrun
    exact ih (h u hu).2 hrun

/-- What every step keeps holds at the end of a run. -/
theorem run_keeps (hstep : ∀ s a t, K s → step s a = some t → K t) {s t : σ} {acts : List α}
    (h : K s) (hrun : acts.foldlM step s = some t) : K t := by
  induction acts generalizing s with
  | nil =>
    cases hrun
    exact h
  | cons a rest ih =>
    rw [List.foldlM_cons, Option.bind_eq_bind, Option.bind_eq_some_iff] at hrun
    obtain ⟨u, hu, hrun⟩ := hrun
    exact ih (hstep s a u h hu) hrun

/-- What the steps of one kind set and no other touches is unset after a run without such a step. -/
theorem unset_iff {flag : σ → Prop} {sets : σ → α → Prop}
    (hstep : ∀ s a t, K s → step s a = some t → K t ∧ (flag t ↔ flag s ∨ sets s a)) {s t : σ}
    {acts : List α} (h : K s) (hrun : acts.foldlM step s = some t) :
    ¬flag t ↔ ¬flag s ∧ EveryStep step (fun s a => ¬sets s a) s acts := by
  induction acts generalizing s with
  | nil =>
    cases hrun
    exact ⟨fun h => ⟨h, trivial⟩, fun h => h.1⟩
  | cons a rest ih =>
    rw [List.foldlM_cons, Option.bind_eq_bind, Option.bind_eq_some_iff] at hrun
    obtain ⟨u, hu, hrun⟩ := hrun
    obtain ⟨hk, hflag⟩ := hstep s a u h hu
    rw [ih hk hrun, hflag, not_or]
    constructor
    · rintro ⟨⟨hflag, hsets⟩, hrest⟩
      refine ⟨hflag, fun v hv => ?_⟩
      cases Option.some.inj (hu.symm.trans hv)
      exact ⟨hsets, hrest⟩
    · rintro ⟨hflag, hevery⟩
      obtain ⟨hsets, hrest⟩ := hevery u hu
      exact ⟨⟨hflag, hsets⟩, hrest⟩

/-- Where each item keeps a property of the list exactly under a condition, the property holds of
every beginning exactly if the condition does. -/
theorem prefixes_iff {P : List α → Prop} {Q : List α → α → Prop} {l : List α} (hnil : P [])
    (hstep : ∀ before a, before ++ [a] <+: l → P before → (P (before ++ [a]) ↔ Q before a)) :
    (∀ before, before <+: l → P before) ↔ ∀ before a, before ++ [a] <+: l → Q before a := by
  constructor
  · intro h before a hl
    exact (hstep before a hl (h before ((List.prefix_append _ _).trans hl))).mp (h _ hl)
  · intro h before
    induction before using List.reverseRecOn with
    | nil => exact fun _ => hnil
    | append_singleton before a ih =>
      intro hl
      exact (hstep before a hl (ih ((List.prefix_append _ _).trans hl))).mpr (h before a hl)

end Steps

variable {σ α β : Type}

/-- What the steps of a run give off, in order. -/
def emitted (step : σ → α → σ) (emits : σ → α → List β) : σ → List α → List β
  | _, [] => []
  | s, a :: rest => emits s a ++ emitted step emits (step s a) rest

section Runs

variable {step : σ → α → σ} {emits : σ → α → List β}

theorem emitted_append (s : σ) (acts more : List α) :
    emitted step emits s (acts ++ more) =
      emitted step emits s acts ++ emitted step emits (acts.foldl step s) more := by
  induction acts generalizing s with
  | nil => rfl
  | cons a rest ih =>
    simp only [List.cons_append, emitted, List.foldl_cons]
    rw [ih, List.append_assoc]

/-- What every step keeps between the state and all that has been given off before it. -/
theorem emitted_keeps {I : List β → σ → Prop}
    (hstep : ∀ given s a, I given s → I (given ++ emits s a) (step s a)) {given : List β} {s : σ}
    (h : I given s) (acts : List α) :
    I (given ++ emitted step emits s acts) (acts.foldl step s) := by
  induction acts generalizing given s with
  | nil =>
    simp only [emitted, List.append_nil]
    exact h
  | cons a rest ih =>
    have hrest := ih (hstep given s a h)
    simp only [emitted, List.foldl_cons]
    rw [← List.append_assoc]
    exact hrest

end Runs

end Seance.Lib
