import Seance.Lib.History

namespace Seance.Lib

variable {σ : Type} {Op : Type} {Ans : Op → Type} {ρ α β : Type}

namespace Proc

/-- Whatever the operations return, each of them is asked for as `φ` allows after the steps
taken before it, and the answer is given as `ψ` allows after all of them. -/
def Keeps (φ : List (Step Ans) → Op → Prop) (ψ : List (Step Ans) → β → Prop) :
    List (Step Ans) → Proc Ans β → Prop
  | steps, done b => ψ steps b
  | steps, await op k => φ steps op ∧ ∀ a, (k a).Keeps φ ψ (steps ++ [⟨op, a⟩])

variable {φ : List (Step Ans) → Op → Prop} {steps : List (Step Ans)}

theorem Keeps.mono {ψ χ : List (Step Ans) → β → Prop} {p : Proc Ans β} (h : p.Keeps φ ψ steps)
    (hψ : ∀ steps b, ψ steps b → χ steps b) : p.Keeps φ χ steps := by
  induction p generalizing steps with
  | done b => exact hψ steps b h
  | await op k ih => exact ⟨h.1, fun a => ih a (h.2 a)⟩

theorem Keeps.bind {ψ : List (Step Ans) → α → Prop} {p : Proc Ans β} {f : β → Proc Ans α}
    (h : p.Keeps φ (fun steps b => (f b).Keeps φ ψ steps) steps) : (p >>= f).Keeps φ ψ steps := by
  induction p generalizing steps with
  | done b => exact h
  | await op k ih => exact ⟨h.1, fun a => ih a (h.2 a)⟩

/-- The same for a process that may throw. -/
theorem Keeps.except_bind {ε : Type} {ψ : List (Step Ans) → Except ε α → Prop}
    {x : ExceptT ε (Proc Ans) β} {f : β → ExceptT ε (Proc Ans) α}
    (h : x.run.Keeps φ (fun steps res => (∀ b, res = .ok b → (f b).run.Keeps φ ψ steps) ∧
      ∀ e, res = .error e → ψ steps (.error e)) steps) : (x >>= f).run.Keeps φ ψ steps := by
  rw [ExceptT.run_bind]
  refine Keeps.bind (h.mono ?_)
  intro steps res hres
  cases res with
  | ok b => exact hres.1 b rfl
  | error e => exact hres.2 e rfl

theorem Keeps.trivial (p : Proc Ans β) (steps : List (Step Ans)) :
    p.Keeps (fun _ _ => True) (fun _ _ => True) steps := by
  induction p generalizing steps with
  | done b => exact True.intro
  | await op k ih => exact ⟨True.intro, fun a => ih a _⟩

/-- Where only the answer matters, it is the one of what the process ends with. -/
theorem Keeps.answers {ε : Type} {ψ : Except ε α → Prop} {x : ExceptT ε (Proc Ans) β}
    {f : β → ExceptT ε (Proc Ans) α}
    (hf : ∀ b steps, (f b).run.Keeps (fun _ _ => True) (fun _ => ψ) steps)
    (herr : ∀ e, ψ (.error e)) : (x >>= f).run.Keeps (fun _ _ => True) (fun _ => ψ) steps := by
  refine Keeps.except_bind ((Keeps.trivial _ _).mono ?_)
  intro steps res _
  exact ⟨fun b _ => hf b steps, fun e _ => herr e⟩

/-- A process over some of the operations, among all of them. -/
def embed {Op' : Type} {Ans' : Op' → Type} (f : Op → Op') (g : ∀ op, Ans' (f op) → Ans op) :
    Proc Ans β → Proc Ans' β
  | done b => done b
  | await op k => await (f op) (fun a => (k (g op a)).embed f g)

theorem Keeps.embed {Op' : Type} {Ans' : Op' → Type} {f : Op → Op'}
    {g : ∀ op, Ans' (f op) → Ans op} {φ : List (Step Ans') → Op' → Prop} {ψ : β → Prop}
    {p : Proc Ans β} (h : p.Keeps (fun _ _ => True) (fun _ => ψ) [])
    {steps : List (Step Ans')} (hφ : ∀ steps op, φ steps (f op)) :
    (p.embed f g).Keeps φ (fun _ => ψ) steps := by
  have hany : ∀ before, p.Keeps (fun _ _ => True) (fun _ => ψ) before →
      (p.embed f g).Keeps φ (fun _ => ψ) steps := by
    clear h
    induction p generalizing steps with
    | done b =>
      intro before h
      exact h
    | await op k ih =>
      intro before h
      exact ⟨hφ steps op, fun a => ih _ _ (h.2 (g op a))⟩
  exact hany [] h

end Proc

/-- Every process has taken its steps as its request's rules have it, and goes on so or has
crashed. -/
structure Traced (S : Service σ Ans ρ α) (φ : Nat → ρ → List (Step Ans) → Op → Prop)
    (ψ : Nat → ρ → List (Step Ans) → α → Prop) (p : Pool σ Ans ρ α)
    (events : List (Event σ Ans)) : Prop where
  tasks : ∀ (i : Nat) task, p.tasks[i]? = some task →
    task.proc.Keeps (φ i task.request) (ψ i task.request) (stepsOf i events) ∨
      task.proc = .done S.crash
  started : ∀ e ∈ events, e.task < p.tasks.length
  taken : ∀ before e after, events = before ++ e :: after → ∃ r, p.request e.task = some r ∧
    φ e.task r (stepsOf e.task before) e.step.op

section Runs

variable {S : Service σ Ans ρ α} {φ : Nat → ρ → List (Step Ans) → Op → Prop}
variable {ψ : Nat → ρ → List (Step Ans) → α → Prop} {p : Pool σ Ans ρ α}
variable {events : List (Event σ Ans)}

/-- Where the task of a pool after a turn comes from. -/
theorem Service.task_cases {turn : Turn ρ} {j : Nat} {task : Task Ans ρ α}
    (h : (S.step p turn).tasks[j]? = some task) :
    (p.tasks[j]? = some task ∧ ∀ e, S.carried p turn = some e → e.task ≠ j) ∨
    (j = p.tasks.length ∧ turn = .arrive task.request ∧ task.proc = S.handler j task.request) ∨
    ∃ old, p.tasks[j]? = some old ∧ old.request = task.request ∧ (task.proc = .done S.crash ∨
      ∃ e k, S.carried p turn = some e ∧ e.task = j ∧ old.proc = .await e.step.op k ∧
        task.proc = k e.step.answer) := by
  cases turn with
  | arrive r =>
    simp only [step, List.getElem?_append] at h
    split at h
    · refine .inl ⟨h, ?_⟩
      rintro e ⟨⟩
    · rename_i hge
      rw [List.getElem?_singleton] at h
      split at h
      · rename_i hzero
        cases h
        have hj : j = p.tasks.length := by omega
        subst hj
        exact .inr (.inl ⟨rfl, rfl, rfl⟩)
      · cases h
  | serve i d =>
    have hcarried : ∀ e, S.carried p (.serve i d) = some e → e.task = i := by
      intro e he
      obtain ⟨_, hturn, _⟩ := carried_eq_some.mp he
      cases hturn
      rfl
    cases hi : p.tasks[i]? with
    | none =>
      simp only [step, hi] at h
      refine .inl ⟨h, ?_⟩
      rintro e he rfl
      rw [hcarried e he, hi] at h
      cases h
    | some old =>
      simp only [step, hi, List.getElem?_set] at h
      split at h
      · rename_i hij
        subst hij
        rw [if_pos (List.getElem?_eq_some_iff.mp hi).1] at h
        cases h
        obtain ⟨r, proc⟩ := old
        cases proc with
        | done a =>
          refine .inl ⟨hi, ?_⟩
          intro e he
          obtain ⟨_, hturn, _, hop, _⟩ := carried_eq_some.mp he
          cases hturn
          rw [Pool.awaiting, hi] at hop
          cases hop
        | await op k =>
          refine .inr (.inr ⟨_, hi, rfl, ?_⟩)
          have hop : p.awaiting i = some op := by
            rw [Pool.awaiting, hi]
            rfl
          cases happly : S.apply op p.shared with
          | none =>
            left
            rw [advance_of_none happly]
          | some bt =>
            have hevent : d ≠ .refused → S.carried p (.serve i d) =
                some ⟨i, ⟨op, bt.1⟩, p.shared, bt.2⟩ :=
              fun hd => carried_eq_some.mpr ⟨d, rfl, hd, hop, rfl, happly⟩
            cases d with
            | intact =>
              refine .inr ⟨_, k, hevent (by simp), rfl, rfl, ?_⟩
              rw [advance_of_some happly]
            | refused =>
              left
              rw [advance_of_some happly]
            | lost =>
              left
              rw [advance_of_some happly]
      · rename_i hij
        refine .inl ⟨h, ?_⟩
        intro e he hej
        exact hij ((hcarried e he).symm.trans hej)

theorem Traced.step (h : Traced S φ ψ p events)
    (hstart : ∀ i r, (S.handler i r).Keeps (φ i r) (ψ i r) []) (turn : Turn ρ) :
    Traced S φ ψ (S.step p turn) (events ++ (S.carried p turn).toList) where
  tasks := by
    intro j task htask
    rw [stepsOf_append]
    rcases Service.task_cases htask with ⟨hold, hother⟩ | ⟨rfl, hturn, hproc⟩ |
      ⟨old, hold, hreq, hproc⟩
    · have hnone : stepsOf j (S.carried p turn).toList = [] := by
        cases hc : S.carried p turn with
        | none => rfl
        | some e => rw [Option.toList_some, stepsOf_singleton, if_neg (hother e hc)]
      rw [hnone, List.append_nil]
      exact h.tasks j task hold
    · left
      have hnew : stepsOf p.tasks.length events = [] := by
        rw [List.eq_nil_iff_forall_not_mem]
        intro st hst
        obtain ⟨e, he, htask, _⟩ := mem_stepsOf.mp hst
        exact Nat.ne_of_lt (h.started e he) htask
      rw [hnew, hturn, hproc]
      exact hstart _ _
    · rcases hproc with hcrash | ⟨e, k, he, rfl, hawait, hgo⟩
      · exact .inr hcrash
      · rw [he, Option.toList_some, stepsOf_singleton, if_pos rfl, hgo, ← hreq]
        rcases h.tasks _ old hold with hkeeps | hcrash
        · rw [hawait] at hkeeps
          exact .inl (hkeeps.2 e.step.answer)
        · rw [hawait] at hcrash
          cases hcrash
  started := by
    intro e he
    have hle : p.tasks.length ≤ (S.step p turn).tasks.length := by
      cases turn with
      | arrive r => simp [Service.step]
      | serve i d =>
        simp only [Service.step]
        split
        · exact Nat.le_refl _
        · simp
    rcases List.mem_append.mp he with he | he
    · exact Nat.lt_of_lt_of_le (h.started e he) hle
    · obtain ⟨_, _, _, hop, _⟩ := Service.carried_eq_some.mp (Option.mem_toList.mp he)
      obtain ⟨task, ht, _⟩ := Option.bind_eq_some_iff.mp hop
      exact Nat.lt_of_lt_of_le (List.getElem?_eq_some_iff.mp ht).1 hle
  taken := by
    intro before e after he
    have hold : ∀ after', events = before ++ e :: after' → ∃ r,
        (S.step p turn).request e.task = some r ∧ φ e.task r (stepsOf e.task before) e.step.op := by
      intro after' he'
      obtain ⟨r, hr, hφ⟩ := h.taken before e after' he'
      exact ⟨r, Service.step_request.mpr (.inl hr), hφ⟩
    cases hc : S.carried p turn with
    | none =>
      rw [hc, Option.toList_none, List.append_nil] at he
      exact hold after he
    | some e' =>
      rw [hc, Option.toList_some] at he
      rcases after.eq_nil_or_concat with rfl | ⟨init, last, rfl⟩
      · obtain ⟨rfl, hlast⟩ := List.append_inj' he rfl
        cases hlast
        obtain ⟨_, _, _, hop, _⟩ := Service.carried_eq_some.mp hc
        obtain ⟨task, ht, hpend⟩ := Option.bind_eq_some_iff.mp hop
        have hr : p.request e.task = some task.request := by rw [Pool.request, ht, Option.map_some]
        refine ⟨task.request, Service.step_request.mpr (.inl hr), ?_⟩
        rcases h.tasks _ task ht with hkeeps | hcrash
        · cases hp : task.proc with
          | done a =>
            rw [hp] at hpend
            cases hpend
          | await op k =>
            rw [hp] at hkeeps hpend
            cases hpend
            exact hkeeps.1
        · rw [hcrash] at hpend
          cases hpend
      · refine hold init ?_
        rw [List.concat_eq_append, ← List.cons_append, ← List.append_assoc] at he
        exact (List.append_inj' he rfl).1

theorem traced_run (hstart : ∀ i r, (S.handler i r).Keeps (φ i r) (ψ i r) []) (s : σ)
    (turns : List (Turn ρ)) :
    Traced S φ ψ (S.run (Service.fresh s) turns) (S.events (Service.fresh s) turns) := by
  induction turns using List.reverseRecOn with
  | nil =>
    exact {
      tasks := by
        rintro i task ⟨⟩
      started := by
        rintro e ⟨⟩
      taken := by
        intro before e after he
        cases before <;> cases he }
  | append_singleton ts t ih =>
    rw [Service.run_concat, Service.events_concat]
    exact ih.step hstart t

/-- What has been answered is what the rules let be answered, or a crash. -/
theorem Traced.replied (h : Traced S φ ψ p events) {i : Nat} {r : ρ} {a : α}
    (hr : p.request i = some r) (ha : p.reply i = some a) :
    ψ i r (stepsOf i events) a ∨ a = S.crash := by
  obtain ⟨task, ht, he⟩ := Option.map_eq_some_iff.mp hr
  subst he
  rw [Pool.reply, ht, Option.bind_some] at ha
  rcases h.tasks i task ht with hkeeps | hcrash
  · cases hp : task.proc with
    | done b =>
      rw [hp] at hkeeps ha
      cases ha
      exact .inl hkeeps
    | await op k =>
      rw [hp] at ha
      cases ha
  · rw [hcrash] at ha
    cases ha
    exact .inr rfl

end Runs

end Seance.Lib
