import Mathlib.Data.List.Basic
import Mathlib.Order.Defs.Unbundled

namespace Seance.Lib

/-- A process as the rest of the system sees it: it has its answer, or it waits for one
operation and goes on with whatever that returns. -/
inductive Proc {Op : Type} (Ans : Op → Type) (α : Type) where
  | done (a : α)
  | await (op : Op) (k : Ans op → Proc Ans α)

namespace Proc

variable {Op : Type} {Ans : Op → Type} {α β : Type}

def bind : Proc Ans α → (α → Proc Ans β) → Proc Ans β
  | done a, f => f a
  | await op k, f => await op (fun b => (k b).bind f)

instance : Monad (Proc Ans) where
  pure := done
  bind := bind

/-- The operation the process is waiting for. -/
def pending : Proc Ans α → Option Op
  | done _ => none
  | await op _ => some op

def answer : Proc Ans α → Option α
  | done a => some a
  | await _ _ => none

/-- Whatever the operations return, the process has its answer after so many of them. -/
def Within : Nat → Proc Ans α → Prop
  | _, done _ => True
  | 0, await _ _ => False
  | n + 1, await _ k => ∀ b, (k b).Within n

theorem within_done (n : Nat) (a : α) : (done a : Proc Ans α).Within n := by
  cases n <;> trivial

theorem Within.zero {p : Proc Ans α} (h : p.Within 0) : ∃ a, p = done a := by
  cases p with
  | done a => exact ⟨a, rfl⟩
  | await op k => exact h.elim

theorem Within.succ {n : Nat} {p : Proc Ans α} (h : p.Within n) : p.Within (n + 1) := by
  induction n generalizing p with
  | zero =>
    obtain ⟨a, rfl⟩ := h.zero
    trivial
  | succ n ih =>
    cases p with
    | done a => trivial
    | await op k => exact fun b => ih (h b)

theorem Within.mono {n m : Nat} {p : Proc Ans α} (h : p.Within n) (hnm : n ≤ m) :
    p.Within m := by
  induction hnm with
  | refl => exact h
  | step _ ih => exact ih.succ

theorem Within.bind {n m : Nat} {p : Proc Ans α} {f : α → Proc Ans β} (h : p.Within n)
    (hf : ∀ a, (f a).Within m) : (p >>= f).Within (n + m) := by
  induction n generalizing p with
  | zero =>
    obtain ⟨a, rfl⟩ := h.zero
    exact (hf a).mono (Nat.le_add_left _ _)
  | succ n ih =>
    cases p with
    | done a => exact (hf a).mono (Nat.le_add_left _ _)
    | await op k =>
      rw [Nat.succ_add]
      exact fun b => ih (h b)

/-- The same for a process that may throw. -/
theorem Within.except_bind {ε : Type} {n m : Nat} {x : ExceptT ε (Proc Ans) α}
    {f : α → ExceptT ε (Proc Ans) β} (h : x.run.Within n) (hf : ∀ a, (f a).run.Within m) :
    (x >>= f).run.Within (n + m) := by
  rw [ExceptT.run_bind]
  refine h.bind ?_
  intro res
  cases res with
  | ok a => exact hf a
  | error e => exact within_done m (Except.error e)

end Proc

/-- How an operation reaches the shared state: in full, not at all, or with its effect but
without its answer. -/
inductive Delivery where
  | intact
  | refused
  | lost
  deriving DecidableEq

/-- What the processes share, and what each request starts. An operation that `apply`
refuses has no effect. -/
structure Service (σ : Type) {Op : Type} (Ans : Op → Type) (ρ α : Type) where
  apply : (op : Op) → σ → Option (Ans op × σ)
  handler : Nat → ρ → Proc Ans α
  crash : α

structure Task {Op : Type} (Ans : Op → Type) (ρ α : Type) where
  request : ρ
  proc : Proc Ans α

structure Pool (σ : Type) {Op : Type} (Ans : Op → Type) (ρ α : Type) where
  shared : σ
  tasks : List (Task Ans ρ α)

namespace Pool

variable {σ : Type} {Op : Type} {Ans : Op → Type} {ρ α : Type} (p : Pool σ Ans ρ α) (i : Nat)

def request : Option ρ := (p.tasks[i]?).map Task.request

def reply : Option α := (p.tasks[i]?).bind (fun task => task.proc.answer)

/-- The operation the i-th process is waiting for. -/
def awaiting : Option Op := (p.tasks[i]?).bind (fun task => task.proc.pending)

theorem forall_request {C : ρ → Prop} :
    (∀ i r, p.request i = some r → C r) ↔ ∀ task ∈ p.tasks, C task.request := by
  constructor
  · intro h task ht
    obtain ⟨i, hi⟩ := List.mem_iff_getElem?.mp ht
    exact h i task.request (by rw [request, hi, Option.map_some])
  · intro h i r hr
    obtain ⟨task, ht, rfl⟩ := Option.map_eq_some_iff.mp hr
    exact h task (List.mem_of_getElem? ht)

end Pool

inductive Turn (ρ : Type) where
  | arrive (r : ρ)
  | serve (i : Nat) (d : Delivery)
  deriving DecidableEq

def Turn.serves {ρ : Type} (i : Nat) : Turn ρ → Bool
  | .arrive _ => false
  | .serve j _ => j = i

namespace Service

variable {σ : Type} {Op : Type} {Ans : Op → Type} {ρ α : Type} (S : Service σ Ans ρ α)

/-- One operation of one process. A process whose operation fails ends in a crash. -/
def advance (d : Delivery) (s : σ) : Proc Ans α → σ × Proc Ans α
  | .done a => (s, .done a)
  | .await op k =>
    match S.apply op s with
    | none => (s, .done S.crash)
    | some (b, t) =>
      match d with
      | .intact => (t, k b)
      | .refused => (s, .done S.crash)
      | .lost => (t, .done S.crash)

variable {S}

theorem advance_of_none {d : Delivery} {s : σ} {op : Op} {k : Ans op → Proc Ans α}
    (h : S.apply op s = none) : S.advance d s (.await op k) = (s, .done S.crash) := by
  simp only [advance, h]

theorem advance_of_some {d : Delivery} {s t : σ} {op : Op} {k : Ans op → Proc Ans α}
    {b : Ans op} (h : S.apply op s = some (b, t)) :
    S.advance d s (.await op k) =
      match d with
      | .intact => (t, k b)
      | .refused => (s, .done S.crash)
      | .lost => (t, .done S.crash) := by
  simp only [advance, h]

variable (S)

/-- The requests are numbered in the order they arrive. -/
def step (p : Pool σ Ans ρ α) : Turn ρ → Pool σ Ans ρ α
  | .arrive r => { p with tasks := p.tasks ++ [⟨r, S.handler p.tasks.length r⟩] }
  | .serve i d =>
    match p.tasks[i]? with
    | none => p
    | some task =>
      ⟨(S.advance d p.shared task.proc).1,
        p.tasks.set i ⟨task.request, (S.advance d p.shared task.proc).2⟩⟩

def run (p : Pool σ Ans ρ α) (turns : List (Turn ρ)) : Pool σ Ans ρ α := turns.foldl S.step p

def fresh (s : σ) : Pool σ Ans ρ α := ⟨s, []⟩

@[simp] theorem run_nil (p : Pool σ Ans ρ α) : S.run p [] = p := rfl

theorem run_cons (p : Pool σ Ans ρ α) (t : Turn ρ) (ts : List (Turn ρ)) :
    S.run p (t :: ts) = S.run (S.step p t) ts := rfl

theorem run_append (p : Pool σ Ans ρ α) (ts us : List (Turn ρ)) :
    S.run p (ts ++ us) = S.run (S.run p ts) us := List.foldl_append

/-- Every turn of the run meets a condition on it and the pool it finds. -/
def Along (C : Pool σ Ans ρ α → Turn ρ → Prop) : Pool σ Ans ρ α → List (Turn ρ) → Prop
  | _, [] => True
  | p, t :: ts => C p t ∧ Along C (S.step p t) ts

instance Along.decidable (C : Pool σ Ans ρ α → Turn ρ → Prop) [∀ p t, Decidable (C p t)] :
    ∀ p ts, Decidable (S.Along C p ts)
  | _, [] => isTrue trivial
  | p, t :: ts =>
    have := Along.decidable C (S.step p t) ts
    inferInstanceAs (Decidable (C p t ∧ S.Along C (S.step p t) ts))

variable {S} {C : Pool σ Ans ρ α → Turn ρ → Prop} {p : Pool σ Ans ρ α}

theorem along_append {ts us : List (Turn ρ)} :
    S.Along C p (ts ++ us) ↔ S.Along C p ts ∧ S.Along C (S.run p ts) us := by
  induction ts generalizing p with
  | nil => simp [Along]
  | cons t ts ih => simp [Along, run_cons, ih, and_assoc]

/-- A condition along a run is one on every way to cut it at a turn. -/
theorem along_iff {ts : List (Turn ρ)} :
    S.Along C p ts ↔ ∀ before t after, ts = before ++ t :: after → C (S.run p before) t := by
  constructor
  · rintro h before t after rfl
    exact (along_append.mp h).2.1
  · intro h
    induction ts generalizing p with
    | nil => trivial
    | cons t ts ih =>
      refine ⟨h [] t ts rfl, ih ?_⟩
      rintro before u after rfl
      exact h (t :: before) u after rfl

theorem Along.imp {D : Pool σ Ans ρ α → Turn ρ → Prop} {ts : List (Turn ρ)}
    (h : S.Along C p ts) (hcd : ∀ q t, C q t → D q t) : S.Along D p ts :=
  along_iff.mpr (fun before t after he => hcd _ _ (along_iff.mp h before t after he))

/-- Requests keep their numbers; an arrival takes the next one. -/
theorem step_request {turn : Turn ρ} {i : Nat} {r : ρ} :
    (S.step p turn).request i = some r ↔
      p.request i = some r ∨ (i = p.tasks.length ∧ turn = .arrive r) := by
  cases turn with
  | arrive r' =>
    simp only [step, Pool.request, List.getElem?_append, Turn.arrive.injEq]
    split
    · rename_i hlt
      have hne : ¬ i = p.tasks.length := by omega
      simp only [hne, false_and, or_false]
    · rename_i hge
      rw [List.getElem?_eq_none (Nat.le_of_not_lt hge), List.getElem?_singleton]
      split
      · have hi : i = p.tasks.length := by omega
        simp [hi]
      · have hi : ¬ i = p.tasks.length := by omega
        simp [hi]
  | serve j d =>
    simp only [step, reduceCtorEq, and_false, or_false]
    split
    · rfl
    · rename_i task ht
      simp only [Pool.request, List.getElem?_set]
      split
      · rename_i hji
        subst hji
        rw [if_pos (List.getElem?_eq_some_iff.mp ht).1, ht]
        rfl
      · rfl

theorem run_request {i : Nat} {r : ρ} (h : p.request i = some r) (turns : List (Turn ρ)) :
    (S.run p turns).request i = some r := by
  induction turns generalizing p with
  | nil => exact h
  | cons t ts ih => exact ih (step_request.mpr (.inl h))

theorem request_isSome {i : Nat} {r : ρ} (h : p.request i = some r) : i < p.tasks.length := by
  obtain ⟨task, ht, _⟩ := Option.map_eq_some_iff.mp h
  exact (List.getElem?_eq_some_iff.mp ht).1

theorem advance_within {n : Nat} {proc : Proc Ans α} (h : proc.Within n) (d : Delivery) (s : σ) :
    (S.advance d s proc).2.Within (n - 1) := by
  cases proc with
  | done a => exact Proc.within_done _ a
  | await op k =>
    cases n with
    | zero => exact h.elim
    | succ n =>
      cases happly : S.apply op s with
      | none =>
        rw [advance_of_none happly]
        exact Proc.within_done _ _
      | some bt =>
        rw [advance_of_some happly]
        cases d with
        | intact => exact h bt.1
        | refused => exact Proc.within_done _ _
        | lost => exact Proc.within_done _ _

theorem step_within {n i : Nat} {task : Task Ans ρ α} (ht : p.tasks[i]? = some task)
    (h : task.proc.Within n) (turn : Turn ρ) : ∃ task', (S.step p turn).tasks[i]? = some task' ∧
      task'.proc.Within (if turn.serves i then n - 1 else n) := by
  cases turn with
  | arrive r =>
    refine ⟨task, ?_, h⟩
    rw [step, List.getElem?_append_left (List.getElem?_eq_some_iff.mp ht).1, ht]
  | serve j d =>
    cases hj : p.tasks[j]? with
    | none =>
      have hij : j ≠ i := by
        rintro rfl
        rw [ht] at hj
        cases hj
      refine ⟨task, by simp only [step, hj, ht], ?_⟩
      simpa [Turn.serves, hij] using h
    | some other =>
      simp only [step, hj, Turn.serves, decide_eq_true_eq]
      split
      · rename_i hji
        subst hji
        rw [ht] at hj
        cases hj
        refine ⟨_, List.getElem?_set_self (List.getElem?_eq_some_iff.mp ht).1, ?_⟩
        exact advance_within h d _
      · rename_i hji
        exact ⟨task, by rw [List.getElem?_set_ne hji, ht], h⟩

/-- A process that has been served often enough has its answer. -/
theorem run_answered {n i : Nat} {task : Task Ans ρ α} (ht : p.tasks[i]? = some task)
    (h : task.proc.Within n) {turns : List (Turn ρ)} (hn : n ≤ turns.countP (Turn.serves i)) :
    ∃ a, (S.run p turns).reply i = some a := by
  induction turns generalizing p n task with
  | nil =>
    rw [List.countP_nil, Nat.le_zero] at hn
    subst hn
    obtain ⟨a, ha⟩ := h.zero
    exact ⟨a, by rw [run_nil, Pool.reply, ht, Option.bind_some, ha]; rfl⟩
  | cons t ts ih =>
    obtain ⟨task', ht', h'⟩ := step_within (S := S) ht h t
    refine ih ht' h' ?_
    rw [List.countP_cons] at hn
    split
    · rename_i hserves
      rw [if_pos hserves] at hn
      omega
    · rename_i hserves
      rwa [if_neg hserves] at hn

/-- The turn carries out the operation, whether or not its answer arrives. -/
def Performs (S : Service σ Ans ρ α) (p : Pool σ Ans ρ α) (turn : Turn ρ) (op : Op) : Prop :=
  ∃ i d, turn = .serve i d ∧ d ≠ .refused ∧ p.awaiting i = some op ∧ S.apply op p.shared ≠ none

theorem step_shared_of_performs {turn : Turn ρ} {op : Op} (h : S.Performs p turn op) :
    ∃ b, S.apply op p.shared = some (b, (S.step p turn).shared) := by
  obtain ⟨i, d, rfl, hd, hop, happly⟩ := h
  obtain ⟨task, ht, hpend⟩ := Option.bind_eq_some_iff.mp hop
  obtain ⟨⟨b, t⟩, hbt⟩ := Option.ne_none_iff_exists'.mp happly
  refine ⟨b, ?_⟩
  rw [hbt]
  simp only [step, ht]
  cases hp : task.proc with
  | done a =>
    rw [hp] at hpend
    cases hpend
  | await op' k =>
    rw [hp] at hpend
    cases hpend
    rw [advance_of_some hbt]
    cases d with
    | intact => rfl
    | refused => exact absurd rfl hd
    | lost => rfl

/-- A turn that changes the shared state carries out an operation. -/
theorem shared_cases (S : Service σ Ans ρ α) (p : Pool σ Ans ρ α) (turn : Turn ρ) :
    (S.step p turn).shared = p.shared ∨ ∃ op, S.Performs p turn op := by
  cases turn with
  | arrive r => exact .inl rfl
  | serve i d =>
    cases ht : p.tasks[i]? with
    | none =>
      left
      simp only [step, ht]
    | some task =>
      cases hp : task.proc with
      | done a =>
        left
        simp only [step, ht, hp, advance]
      | await op k =>
        have hop : p.awaiting i = some op := by rw [Pool.awaiting, ht, Option.bind_some, hp]; rfl
        by_cases happly : S.apply op p.shared = none
        · left
          simp only [step, ht, hp, advance_of_none happly]
        · by_cases hd : d = .refused
          · left
            obtain ⟨⟨b, t⟩, hbt⟩ := Option.ne_none_iff_exists'.mp happly
            simp only [step, ht, hp, advance_of_some hbt, hd]
          · exact .inr ⟨op, i, d, rfl, hd, hop, happly⟩

/-- A relation that every turn of a run keeps to holds from the start of the run to its
end. -/
theorem run_rel {R : σ → σ → Prop} [Std.Refl R] [IsTrans σ R] {turns : List (Turn ρ)}
    (h : S.Along (fun q t => R q.shared (S.step q t).shared) p turns) :
    R p.shared (S.run p turns).shared := by
  induction turns generalizing p with
  | nil => exact refl_of R _
  | cons t ts ih => exact trans_of R h.1 (ih h.2)

end Service

end Seance.Lib
