import Mathlib.Data.List.Induction
import Seance.Lib.Process

namespace Seance.Lib

/-- An operation with what it has returned. -/
structure Step {Op : Type} (Ans : Op → Type) where
  op : Op
  answer : Ans op

/-- An operation that was carried out: for which process, and between which states. -/
structure Event (σ : Type) {Op : Type} (Ans : Op → Type) where
  task : Nat
  step : Step Ans
  pre : σ
  post : σ

variable {σ : Type} {Op : Type} {Ans : Op → Type} {ρ α β : Type}

/-- The steps of one process among the events. -/
def stepsOf (i : Nat) (events : List (Event σ Ans)) : List (Step Ans) :=
  (events.filter (fun e => e.task = i)).map Event.step

section Steps

variable {i : Nat} {es fs : List (Event σ Ans)} {e : Event σ Ans}

theorem stepsOf_append : stepsOf i (es ++ fs) = stepsOf i es ++ stepsOf i fs := by
  rw [stepsOf, List.filter_append, List.map_append]
  rfl

theorem stepsOf_singleton : stepsOf i [e] = if e.task = i then [e.step] else [] := by
  unfold stepsOf
  split
  · rename_i h
    rw [List.filter_cons_of_pos (by simpa using h)]
    rfl
  · rename_i h
    rw [List.filter_cons_of_neg (by simpa using h)]
    rfl

theorem mem_stepsOf {st : Step Ans} :
    st ∈ stepsOf i es ↔ ∃ e ∈ es, e.task = i ∧ e.step = st := by
  simp only [stepsOf, List.mem_map, List.mem_filter, decide_eq_true_eq, and_assoc]

end Steps

/-- What holds of an entry and every later one holds pairwise. -/
theorem pairwise_of_cut {γ : Type} {R : γ → γ → Prop} {l : List γ}
    (h : ∀ first a mid b last, l = first ++ a :: mid ++ b :: last → R a b) : l.Pairwise R := by
  rw [List.pairwise_iff_forall_sublist]
  intro a b hab
  obtain ⟨front, back, rfl, ha, hb⟩ := List.cons_sublist_iff.mp hab
  obtain ⟨first, mid, rfl⟩ := List.append_of_mem ha
  obtain ⟨mid', last, rfl⟩ := List.append_of_mem (List.singleton_sublist.mp hb)
  exact h first a (mid ++ mid') b last (by simp)

/-- The events lead from one state to the other: each finds what the one before it left. -/
def Linked (apply : (op : Op) → σ → Option (Ans op × σ)) : σ → List (Event σ Ans) → σ → Prop
  | s, [], t => s = t
  | s, e :: es, t => e.pre = s ∧ apply e.step.op s = some (e.step.answer, e.post) ∧
    Linked apply e.post es t

section Linked

variable {apply : (op : Op) → σ → Option (Ans op × σ)} {s t : σ} {es fs : List (Event σ Ans)}

theorem linked_append :
    Linked apply s (es ++ fs) t ↔ ∃ u, Linked apply s es u ∧ Linked apply u fs t := by
  induction es generalizing s with
  | nil =>
    constructor
    · intro h
      exact ⟨s, rfl, h⟩
    · rintro ⟨u, rfl, h⟩
      exact h
  | cons e es ih => simp only [List.cons_append, Linked, ih, exists_and_left, and_assoc]

/-- What no event spoils holds after them. -/
theorem Linked.keeps {R : σ → Prop} (h : Linked apply s es t) (hs : R s)
    (hstep : ∀ e ∈ es, apply e.step.op e.pre = some (e.step.answer, e.post) → R e.pre → R e.post) :
    R t := by
  induction es generalizing s with
  | nil =>
    obtain rfl : s = t := h
    exact hs
  | cons e es ih =>
    obtain ⟨rfl, happly, h⟩ := h
    refine ih h (hstep e List.mem_cons_self happly hs) ?_
    exact fun f hf => hstep f (List.mem_cons_of_mem _ hf)

theorem applied_step {e : Event σ Ans} {op : Op} {a : Ans op} (he : e.step = ⟨op, a⟩)
    (h : apply e.step.op e.pre = some (e.step.answer, e.post)) :
    apply op e.pre = some (a, e.post) := by
  rw [he] at h
  exact h

theorem applied_op {e : Event σ Ans} {op : Op} (he : e.step.op = op)
    (h : apply e.step.op e.pre = some (e.step.answer, e.post)) :
    ∃ a, apply op e.pre = some (a, e.post) := by
  subst he
  exact ⟨_, h⟩

/-- An event in the middle: what led to it, what it did and what came of it. -/
theorem linked_middle {e : Event σ Ans} (h : Linked apply s (es ++ e :: fs) t) :
    Linked apply s es e.pre ∧ apply e.step.op e.pre = some (e.step.answer, e.post) ∧
      Linked apply e.post fs t := by
  obtain ⟨u, hbefore, rfl, happly, hafter⟩ := linked_append.mp h
  exact ⟨hbefore, happly, hafter⟩

end Linked

namespace Service

variable (S : Service σ Ans ρ α)

/-- What a turn carries out. -/
def carried (p : Pool σ Ans ρ α) : Turn ρ → Option (Event σ Ans)
  | .arrive _ => none
  | .serve i d =>
    if d = .refused then none
    else (p.awaiting i).bind (fun op => (S.apply op p.shared).map
      (fun bt => ⟨i, ⟨op, bt.1⟩, p.shared, bt.2⟩))

/-- What a run carries out, in its order. -/
def events : Pool σ Ans ρ α → List (Turn ρ) → List (Event σ Ans)
  | _, [] => []
  | p, t :: ts => (S.carried p t).toList ++ events (S.step p t) ts

/-- The operations that a run carries out. -/
def history (p : Pool σ Ans ρ α) (turns : List (Turn ρ)) : List Op :=
  (S.events p turns).map (fun e => e.step.op)

variable {S} {p : Pool σ Ans ρ α} {turn : Turn ρ} {e : Event σ Ans}

theorem carried_eq_some : S.carried p turn = some e ↔ ∃ d, turn = .serve e.task d ∧
    d ≠ .refused ∧ p.awaiting e.task = some e.step.op ∧ e.pre = p.shared ∧
    S.apply e.step.op p.shared = some (e.step.answer, e.post) := by
  cases turn with
  | arrive r =>
    constructor
    · intro h
      cases h
    · rintro ⟨d, he, _⟩
      cases he
  | serve i d =>
    simp only [carried, Option.ite_none_left_eq_some, Option.bind_eq_some_iff,
      Option.map_eq_some_iff]
    constructor
    · rintro ⟨hd, op, hop, ⟨b, t⟩, happly, rfl⟩
      exact ⟨d, rfl, hd, hop, rfl, happly⟩
    · rintro ⟨d', he, hd, hop, hpre, happly⟩
      cases he
      obtain ⟨i, ⟨op, b⟩, pre, post⟩ := e
      cases hpre
      exact ⟨hd, op, hop, (b, post), happly, rfl⟩

theorem shared_of_carried (h : S.carried p turn = some e) :
    e.pre = p.shared ∧ (S.step p turn).shared = e.post := by
  obtain ⟨d, rfl, hd, hop, hpre, happly⟩ := carried_eq_some.mp h
  have hperforms : S.Performs p (.serve e.task d) e.step.op :=
    ⟨e.task, d, rfl, hd, hop, by rw [happly]; simp⟩
  obtain ⟨b, hb⟩ := step_shared_of_performs hperforms
  rw [happly] at hb
  exact ⟨hpre, (congrArg Prod.snd (Option.some.inj hb)).symm⟩

theorem shared_of_carried_none (h : S.carried p turn = none) :
    (S.step p turn).shared = p.shared := by
  rcases S.shared_cases p turn with heq | ⟨op, i, d, rfl, hd, hop, happly⟩
  · exact heq
  · obtain ⟨⟨b, t⟩, hbt⟩ := Option.ne_none_iff_exists'.mp happly
    have hsome : S.carried p (.serve i d) = some ⟨i, ⟨op, b⟩, p.shared, t⟩ :=
      carried_eq_some.mpr ⟨d, rfl, hd, hop, rfl, hbt⟩
    rw [h] at hsome
    cases hsome

theorem events_append (ts us : List (Turn ρ)) :
    S.events p (ts ++ us) = S.events p ts ++ S.events (S.run p ts) us := by
  induction ts generalizing p with
  | nil => rfl
  | cons t ts ih => rw [List.cons_append, events, events, ih, run_cons, List.append_assoc]

theorem events_concat (ts : List (Turn ρ)) (t : Turn ρ) :
    S.events p (ts ++ [t]) = S.events p ts ++ (S.carried (S.run p ts) t).toList := by
  rw [events_append, events, events, List.append_nil]

theorem run_concat (ts : List (Turn ρ)) (t : Turn ρ) :
    S.run p (ts ++ [t]) = S.step (S.run p ts) t := by
  rw [run_append]
  rfl

theorem events_linked (turns : List (Turn ρ)) :
    Linked S.apply p.shared (S.events p turns) (S.run p turns).shared := by
  induction turns generalizing p with
  | nil => rfl
  | cons t ts ih =>
    rw [events, run_cons]
    cases hc : S.carried p t with
    | none =>
      rw [Option.toList_none, List.nil_append, ← shared_of_carried_none hc]
      exact ih
    | some e =>
      obtain ⟨hpre, hpost⟩ := shared_of_carried hc
      obtain ⟨_, _, _, _, _, happly⟩ := carried_eq_some.mp hc
      rw [Option.toList_some, List.singleton_append]
      refine ⟨hpre, happly, ?_⟩
      rw [← hpost]
      exact ih

/-- What every event keeps up holds of a run's events and its shared state. -/
theorem events_run {R : List (Event σ Ans) → σ → Prop} (h : R [] p.shared)
    (hstep : ∀ es e, R es e.pre → S.apply e.step.op e.pre = some (e.step.answer, e.post) →
      R (es ++ [e]) e.post)
    (turns : List (Turn ρ)) : R (S.events p turns) (S.run p turns).shared := by
  induction turns using List.reverseRecOn with
  | nil => exact h
  | append_singleton ts t ih =>
    rw [events_concat, run_concat]
    cases hc : S.carried (S.run p ts) t with
    | none => rwa [Option.toList_none, List.append_nil, shared_of_carried_none hc]
    | some e =>
      obtain ⟨hpre, hpost⟩ := shared_of_carried hc
      obtain ⟨_, _, _, _, _, happly⟩ := carried_eq_some.mp hc
      rw [hpost]
      rw [← hpre] at ih happly
      exact hstep _ e ih happly

/-- The same for the operations alone. -/
theorem history_run {R : List Op → σ → Prop} (h : R [] p.shared)
    (hstep : ∀ ops s op b t, R ops s → S.apply op s = some (b, t) → R (ops ++ [op]) t)
    (turns : List (Turn ρ)) : R (S.history p turns) (S.run p turns).shared := by
  refine events_run (R := fun es s => R (es.map (fun e => e.step.op)) s) h ?_ turns
  intro es e hR happly
  rw [List.map_append]
  exact hstep _ _ _ _ _ hR happly

end Service

end Seance.Lib
