import Mathlib.Order.Defs.Unbundled

namespace Seance.Lib

variable {ε σ α β : Type}

def stateOf : EStateM.Result ε σ α → σ
  | .ok _ t => t
  | .error _ t => t

/-- The state a program leaves behind, whether it returns or throws. -/
def finalState (x : EStateM ε σ α) (s : σ) : σ := stateOf (x.run s)

/-- What a program answers, with the state forgotten. -/
def outcome (x : EStateM ε σ α) (s : σ) : Except ε α :=
  match x.run s with
  | .ok a _ => .ok a
  | .error e _ => .error e

/-- A read of the state that may fail and writes nothing. -/
def query (f : σ → Except ε α) : EStateM ε σ α := fun s =>
  match f s with
  | .ok a => .ok a s
  | .error e => .error e s

/-- A state transition that either succeeds or leaves the state alone. -/
def attempt (f : σ → Except ε σ) : EStateM ε σ Unit := fun s =>
  match f s with
  | .ok t => .ok () t
  | .error e => .error e s

/-- The caller sees the answer as a value; the state stays as the program left it. -/
def observe (x : EStateM ε σ α) : EStateM ε σ (Except ε α) := fun s =>
  match x.run s with
  | .ok a t => .ok (.ok a) t
  | .error e t => .ok (.error e) t

theorem except_bind_ok {x : Except ε α} {f : α → Except ε β} {b : β} :
    (x >>= f) = .ok b ↔ ∃ a, x = .ok a ∧ f a = .ok b := by
  cases x with
  | ok a =>
    constructor
    · exact fun h => ⟨a, rfl, h⟩
    · rintro ⟨_, ha, h⟩
      cases ha
      exact h
  | error e =>
    constructor
    · intro h
      cases h
    · rintro ⟨_, ha, _⟩
      cases ha

/-- A check that answers nothing, and what comes after it. -/
theorem except_unit_bind_ok {x : Except ε Unit} {f : Unit → Except ε β} {b : β} :
    (x >>= f) = .ok b ↔ x = .ok () ∧ f () = .ok b := by
  rw [except_bind_ok]
  constructor
  · rintro ⟨⟨⟩, hx, hf⟩
    exact ⟨hx, hf⟩
  · rintro ⟨hx, hf⟩
    exact ⟨(), hx, hf⟩

@[simp] theorem except_ok_bind (a : α) (f : α → Except ε β) :
    ((.ok a : Except ε α) >>= f) = f a := rfl

section Runs

variable {s t : σ} {a : α} {b : β} {e : ε}

theorem run_bind_ok {x : EStateM ε σ α} {f : α → EStateM ε σ β} :
    (x >>= f).run s = .ok b t ↔ ∃ a u, x.run s = .ok a u ∧ (f a).run u = .ok b t := by
  rw [EStateM.run_bind]
  cases h : x.run s with
  | ok a u =>
    constructor
    · exact fun hf => ⟨a, u, rfl, hf⟩
    · rintro ⟨_, _, he, hf⟩
      cases he
      exact hf
  | error e u => simp

theorem run_bind_error {x : EStateM ε σ α} {f : α → EStateM ε σ β} :
    (x >>= f).run s = .error e t ↔
      x.run s = .error e t ∨ ∃ a u, x.run s = .ok a u ∧ (f a).run u = .error e t := by
  rw [EStateM.run_bind]
  cases h : x.run s with
  | ok a u =>
    constructor
    · exact fun hf => Or.inr ⟨a, u, rfl, hf⟩
    · rintro (he | ⟨_, _, he, hf⟩)
      · cases he
      · cases he
        exact hf
  | error e u => simp

theorem run_bind_of_ok {x : EStateM ε σ α} {f : α → EStateM ε σ β}
    (h : x.run s = .ok a t) : (x >>= f).run s = (f a).run t := by
  rw [EStateM.run_bind, h]

theorem run_bind_of_error {x : EStateM ε σ α} {f : α → EStateM ε σ β}
    (h : x.run s = .error e t) : (x >>= f).run s = .error e t := by
  rw [EStateM.run_bind, h]

theorem run_query (f : σ → Except ε α) :
    (query f).run s = match f s with
      | .ok a => .ok a s
      | .error e => .error e s := rfl

theorem run_query_of_ok {f : σ → Except ε α} (h : f s = .ok a) :
    (query f).run s = .ok a s := by
  rw [run_query, h]

theorem run_query_of_error {f : σ → Except ε α} (h : f s = .error e) :
    (query f).run s = .error e s := by
  rw [run_query, h]

theorem query_ok {f : σ → Except ε α} (h : (query f).run s = .ok a t) : f s = .ok a ∧ s = t := by
  rw [run_query] at h
  split at h
  · rename_i hf
    cases h
    exact ⟨hf, rfl⟩
  · cases h

theorem state_of_query {f : σ → Except ε α} (h : (query f).run s = .ok a t) : s = t :=
  (query_ok h).2

/-- A read that cannot fail. -/
theorem run_read_bind (g : σ → α) (f : α → EStateM ε σ β) :
    (query (fun s => .ok (g s)) >>= f).run s = (f (g s)).run s := rfl

theorem run_attempt (f : σ → Except ε σ) :
    (attempt f).run s = match f s with
      | .ok t => .ok () t
      | .error e => .error e s := rfl

theorem run_observe (x : EStateM ε σ α) :
    (observe x).run s = match x.run s with
      | .ok a t => .ok (.ok a) t
      | .error e t => .ok (.error e) t := rfl

theorem finalState_of_ok {x : EStateM ε σ α} (h : x.run s = .ok a t) : finalState x s = t := by
  rw [finalState, h, stateOf]

theorem finalState_of_error {x : EStateM ε σ α} (h : x.run s = .error e t) :
    finalState x s = t := by
  rw [finalState, h, stateOf]

theorem finalState_get_bind (f : σ → EStateM ε σ β) : finalState (get >>= f) s = finalState (f s) s :=
  rfl

theorem finalState_bind_pure (x : EStateM ε σ α) (b : β) (s : σ) :
    finalState (x >>= fun _ => pure b) s = finalState x s := by
  cases h : x.run s with
  | ok a t =>
    rw [finalState_of_ok h, finalState, run_bind_of_ok h]
    rfl
  | error e t => rw [finalState_of_error h, finalState_of_error (run_bind_of_error h)]

theorem finalState_observe (x : EStateM ε σ α) (s : σ) :
    finalState (observe x) s = finalState x s := by
  unfold finalState
  rw [run_observe]
  cases x.run s <;> rfl

theorem run_of_outcome_ok {x : EStateM ε σ α} (h : outcome x s = .ok a) :
    x.run s = .ok a (finalState x s) := by
  unfold outcome at h
  unfold finalState
  split at h
  · rename_i hr
    cases h
    rw [hr]
    rfl
  · cases h

theorem run_of_outcome_error {x : EStateM ε σ α} (h : outcome x s = .error e) :
    x.run s = .error e (finalState x s) := by
  unfold outcome at h
  unfold finalState
  split at h
  · cases h
  · rename_i hr
    cases h
    rw [hr]
    rfl

theorem outcome_of_ok {x : EStateM ε σ α} (h : x.run s = .ok a t) : outcome x s = .ok a := by
  rw [outcome, h]

theorem outcome_of_error {x : EStateM ε σ α} (h : x.run s = .error e t) :
    outcome x s = .error e := by
  rw [outcome, h]

end Runs

/-- Every step of the program, successful or not, moves the state within `R`. -/
def Moves (R : σ → σ → Prop) (x : EStateM ε σ α) : Prop := ∀ s, R s (finalState x s)

namespace Moves

variable {R : σ → σ → Prop} {x : EStateM ε σ α} {f : α → EStateM ε σ β}

theorem of_ok (h : Moves R x) {s t : σ} {a : α} (hx : x.run s = .ok a t) : R s t := by
  have hs := h s
  rwa [finalState_of_ok hx] at hs

theorem of_error (h : Moves R x) {s t : σ} {e : ε} (hx : x.run s = .error e t) : R s t := by
  have hs := h s
  rwa [finalState_of_error hx] at hs

theorem bind [IsTrans σ R] (hx : Moves R x) (hf : ∀ a, Moves R (f a)) :
    Moves R (x >>= f) := by
  intro s
  cases h : x.run s with
  | ok a t =>
    have hs : finalState (x >>= f) s = finalState (f a) t := by
      rw [finalState, run_bind_of_ok h, finalState]
    rw [hs]
    exact trans_of R (hx.of_ok h) (hf a t)
  | error e t =>
    rw [finalState_of_error (run_bind_of_error h)]
    exact hx.of_error h

theorem pure [Std.Refl R] (a : α) : Moves R (pure a : EStateM ε σ α) :=
  fun s => refl_of R s

theorem throw [Std.Refl R] (e : ε) : Moves R (throw e : EStateM ε σ α) :=
  fun s => refl_of R s

theorem query [Std.Refl R] (f : σ → Except ε α) : Moves R (query f) := by
  intro s
  unfold finalState
  rw [run_query]
  cases f s <;> exact refl_of R s

theorem attempt [Std.Refl R] {f : σ → Except ε σ} (h : ∀ s t, f s = .ok t → R s t) :
    Moves R (attempt f) := by
  intro s
  unfold finalState
  rw [run_attempt]
  cases hf : f s with
  | ok t => exact h s t hf
  | error e => exact refl_of R s

theorem modify {f : σ → σ} (h : ∀ s, R s (f s)) : Moves R (modify f : EStateM ε σ PUnit) := h

theorem observe (hx : Moves R x) : Moves R (observe x) := by
  intro s
  rw [finalState_observe]
  exact hx s

theorem mono {Q : σ → σ → Prop} (hx : Moves R x) (h : ∀ s t, R s t → Q s t) : Moves Q x :=
  fun s => h s _ (hx s)

end Moves

end Seance.Lib
