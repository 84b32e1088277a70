import Seance.Lib.Process

namespace Seance.Lib

variable {σ : Type} {Op : Type} {Ans : Op → Type} {ρ α β γ : Type}

namespace Proc

/-- The process with nobody else on the state: its answer, or none after an operation that
failed, and the state it leaves. -/
def alone (apply : (op : Op) → σ → Option (Ans op × σ)) : Proc Ans β → σ → Option β × σ
  | done b, s => (some b, s)
  | await op k, s =>
    match apply op s with
    | none => (none, s)
    | some (a, t) => (k a).alone apply t

variable {apply : (op : Op) → σ → Option (Ans op × σ)} {s t : σ}

@[simp] theorem alone_done (b : β) : (done b : Proc Ans β).alone apply s = (some b, s) := rfl

theorem alone_await_of_none {op : Op} {k : Ans op → Proc Ans β} (h : apply op s = none) :
    (await op k).alone apply s = (none, s) := by
  simp only [alone, h]

theorem alone_await_of_some {op : Op} {k : Ans op → Proc Ans β} {a : Ans op}
    (h : apply op s = some (a, t)) : (await op k).alone apply s = (k a).alone apply t := by
  simp only [alone, h]

theorem alone_bind (p : Proc Ans β) (f : β → Proc Ans γ) :
    (p >>= f).alone apply s =
      match p.alone apply s with
      | (some b, t) => (f b).alone apply t
      | (none, t) => (none, t) := by
  induction p generalizing s with
  | done b => rfl
  | await op k ih =>
    cases h : apply op s with
    | none =>
      rw [alone_await_of_none h]
      exact alone_await_of_none h
    | some bt =>
      rw [alone_await_of_some h]
      exact (alone_await_of_some h).trans (ih bt.1)

/-- The same for a process that may throw. -/
theorem alone_except_bind {ε : Type} (x : ExceptT ε (Proc Ans) β)
    (f : β → ExceptT ε (Proc Ans) γ) :
    (x >>= f).run.alone apply s =
      match x.run.alone apply s with
      | (some (.ok b), t) => (f b).run.alone apply t
      | (some (.error e), t) => (some (.error e), t)
      | (none, t) => (none, t) := by
  rw [ExceptT.run_bind]
  refine (alone_bind _ _).trans ?_
  obtain ⟨o, t⟩ := x.run.alone apply s
  cases o with
  | none => rfl
  | some res =>
    cases res with
    | ok b => rfl
    | error e => rfl

/-- Alone from this state, the process has its answer, or has failed, after so many
operations. -/
def Ends (apply : (op : Op) → σ → Option (Ans op × σ)) : Nat → Proc Ans β → σ → Prop
  | _, done _, _ => True
  | 0, await _ _, _ => False
  | n + 1, await op k, s => ∀ a t, apply op s = some (a, t) → (k a).Ends apply n t

theorem ends_done (n : Nat) (b : β) : (done b : Proc Ans β).Ends apply n s := by
  cases n <;> trivial

theorem Ends.zero {p : Proc Ans β} (h : p.Ends apply 0 s) : ∃ b, p = done b := by
  cases p with
  | done b => exact ⟨b, rfl⟩
  | await op k => exact h.elim

theorem Within.ends {n : Nat} {p : Proc Ans β} (h : p.Within n) : p.Ends apply n s := by
  induction n generalizing p s with
  | zero =>
    obtain ⟨b, rfl⟩ := h.zero
    trivial
  | succ n ih =>
    cases p with
    | done b => trivial
    | await op k => exact fun a t _ => ih (h a)

theorem Ends.succ {n : Nat} {p : Proc Ans β} (h : p.Ends apply n s) : p.Ends apply (n + 1) s := by
  induction n generalizing p s with
  | zero =>
    obtain ⟨b, rfl⟩ := h.zero
    trivial
  | succ n ih =>
    cases p with
    | done b => trivial
    | await op k => exact fun a t happly => ih (h a t happly)

theorem Ends.mono {n m : Nat} {p : Proc Ans β} (h : p.Ends apply n s) (hnm : n ≤ m) :
    p.Ends apply m s := by
  induction hnm with
  | refl => exact h
  | step _ ih => exact ih.succ

theorem Ends.bind {n m : Nat} {p : Proc Ans β} {f : β → Proc Ans γ} (h : p.Ends apply n s)
    (hf : ∀ b t, p.alone apply s = (some b, t) → (f b).Ends apply m t) :
    (p >>= f).Ends apply (n + m) s := by
  induction n generalizing p s with
  | zero =>
    obtain ⟨b, rfl⟩ := h.zero
    exact (hf b s rfl).mono (Nat.le_add_left _ _)
  | succ n ih =>
    cases p with
    | done b => exact (hf b s rfl).mono (Nat.le_add_left _ _)
    | await op k =>
      rw [Nat.succ_add]
      intro a t happly
      refine ih (h a t happly) ?_
      intro b u halone
      exact hf b u ((alone_await_of_some happly).trans halone)

/-- The same for a process that may throw. -/
theorem Ends.except_bind {ε : Type} {n m : Nat} {x : ExceptT ε (Proc Ans) β}
    {f : β → ExceptT ε (Proc Ans) γ} (h : x.run.Ends apply n s)
    (hf : ∀ b t, x.run.alone apply s = (some (.ok b), t) → (f b).run.Ends apply m t) :
    (x >>= f).run.Ends apply (n + m) s := by
  rw [ExceptT.run_bind]
  refine h.bind ?_
  intro res t halone
  cases res with
  | ok b => exact hf b t halone
  | error e => exact ends_done m (Except.error e)

end Proc

namespace Service

variable {S : Service σ Ans ρ α} {p : Pool σ Ans ρ α} {task : Task Ans ρ α} {i n : Nat}

/-- A process that takes all its turns in a row has run alone. -/
theorem run_alone (ht : p.tasks[i]? = some task) (h : task.proc.Ends S.apply n p.shared) :
    S.run p (List.replicate n (.serve i .intact)) =
      ⟨(task.proc.alone S.apply p.shared).2,
        p.tasks.set i ⟨task.request, .done ((task.proc.alone S.apply p.shared).1.getD S.crash)⟩⟩ := by
  have hlt := (List.getElem?_eq_some_iff.mp ht).1
  induction n generalizing p task with
  | zero =>
    obtain ⟨a, ha⟩ := h.zero
    obtain ⟨r, proc⟩ := task
    subst ha
    have hset : p.tasks.set i ⟨r, .done a⟩ = p.tasks := by
      rw [← (List.getElem?_eq_some_iff.mp ht).2, List.set_getElem_self]
    simp only [List.replicate_zero, run_nil, Proc.alone_done, Option.getD_some, hset]
  | succ n ih =>
    obtain ⟨r, proc⟩ := task
    have hstep : S.step p (.serve i .intact) = ⟨(S.advance .intact p.shared proc).1,
        p.tasks.set i ⟨r, (S.advance .intact p.shared proc).2⟩⟩ := by
      simp only [step, ht]
    have hget : (p.tasks.set i ⟨r, (S.advance .intact p.shared proc).2⟩)[i]? =
        some ⟨r, (S.advance .intact p.shared proc).2⟩ := List.getElem?_set_self hlt
    have hends : (S.advance .intact p.shared proc).2.Ends S.apply n
        (S.advance .intact p.shared proc).1 := by
      cases proc with
      | done a => exact Proc.ends_done n a
      | await op k =>
        cases happly : S.apply op p.shared with
        | none =>
          rw [advance_of_none happly]
          exact Proc.ends_done n S.crash
        | some bt =>
          rw [advance_of_some happly]
          exact h bt.1 bt.2 happly
    rw [List.replicate_succ, run_cons, hstep, ih hget hends (by simpa using hlt), List.set_set]
    cases proc with
    | done a => rfl
    | await op k =>
      cases happly : S.apply op p.shared with
      | none =>
        rw [advance_of_none happly, Proc.alone_await_of_none happly]
        rfl
      | some bt => rw [advance_of_some happly, Proc.alone_await_of_some happly]

/-- A request that arrives and takes all its turns at once. -/
theorem run_request_alone {r : ρ}
    (h : (S.handler p.tasks.length r).Ends S.apply n p.shared) :
    S.run p (.arrive r :: List.replicate n (.serve p.tasks.length .intact)) =
      ⟨((S.handler p.tasks.length r).alone S.apply p.shared).2,
        p.tasks ++ [⟨r, .done (((S.handler p.tasks.length r).alone S.apply p.shared).1.getD
          S.crash)⟩]⟩ := by
  have ht : (S.step p (.arrive r)).tasks[p.tasks.length]? =
      some ⟨r, S.handler p.tasks.length r⟩ := List.getElem?_concat_length
  rw [run_cons, run_alone ht h]
  simp [step]

end Service

end Seance.Lib
