import Seance.Lib.Process

namespace Seance.Lib

/-- What is assumed of a run: which requests arrive, which of them may meet, in which states
operations are performed, and which processes may see one fail. -/
structure Terms (σ ρ Op : Type) where
  admits : Nat → ρ → σ → Prop
  apart : ρ → ρ → Prop
  legal : Nat → ρ → Op → σ → Prop
  faulty : Nat → ρ → Prop

/-- Rely and guarantee for numbered processes on one shared state. What process `i` does to
the state lies within `guar i`; what it may count on from all the others is `rely i`, and
what it counts on before it has started is `unborn i`. -/
structure Discipline {σ ρ Op : Type} (T : Terms σ ρ Op) where
  inv : σ → Prop
  unborn : Nat → ρ → σ → Prop
  rely : Nat → ρ → σ → σ → Prop
  guar : Nat → ρ → σ → σ → Prop
  refl : ∀ i r s, rely i r s s
  trans : ∀ i r s t u, rely i r s t → rely i r t u → rely i r s u
  compat : ∀ i j r r' s t, i ≠ j → T.apart r r' → guar i r s t → rely j r' s t
  unborn_rely : ∀ i r s t, rely i r s t → unborn i r s → unborn i r t

variable {σ : Type} {Op : Type} {Ans : Op → Type} {ρ α β : Type} {T : Terms σ ρ Op}
variable (S : Service σ Ans ρ α) (D : Discipline T)

/-- Process `i`, left to run among others that keep its rely, keeps the invariant and its
guarantee, and ends in the postcondition. -/
def Safe (i : Nat) (r : ρ) (Q : β → σ → Prop) : Proc Ans β → σ → Prop
  | .done a, s => Q a s
  | .await op k, s => ∀ t, D.rely i r s t → D.inv t →
      match S.apply op t with
      | none => T.legal i r op t → T.faulty i r
      | some (b, u) => D.inv u ∧ D.guar i r t u ∧ (T.legal i r op t → Safe i r Q (k b) u)

namespace Safe

variable {S D} {i : Nat} {r : ρ} {Q : β → σ → Prop} {s : σ}

theorem await {op : Op} {k : Ans op → Proc Ans β}
    (hnone : ∀ t, D.rely i r s t → D.inv t → T.legal i r op t → S.apply op t = none →
      T.faulty i r)
    (hsome : ∀ t b u, D.rely i r s t → D.inv t → S.apply op t = some (b, u) →
      D.inv u ∧ D.guar i r t u ∧ (T.legal i r op t → Safe S D i r Q (k b) u)) :
    Safe S D i r Q (.await op k) s := by
  intro t hrely hinv
  split
  · rename_i h
    exact fun hlegal => hnone t hrely hinv hlegal h
  · rename_i b u h
    exact hsome t b u hrely hinv h

/-- An operation that reads the state and leaves it as it is. -/
theorem read {op : Op} {k : Ans op → Proc Ans β} {f : σ → Ans op}
    (happly : ∀ t, S.apply op t = some (f t, t)) (hguar : ∀ t, D.guar i r t t)
    (h : ∀ t, D.rely i r s t → D.inv t → T.legal i r op t → Safe S D i r Q (k (f t)) t) :
    Safe S D i r Q (.await op k) s := by
  intro t hrely hinv
  rw [happly]
  exact ⟨hinv, hguar t, h t hrely hinv⟩

theorem mono {Q' : β → σ → Prop} {p : Proc Ans β} (h : Safe S D i r Q p s)
    (hq : ∀ a t, Q a t → Q' a t) : Safe S D i r Q' p s := by
  induction p generalizing s with
  | done a => exact hq a s h
  | await op k ih =>
    intro t hrely hinv
    have ht := h t hrely hinv
    split at ht
    · exact ht
    · exact ⟨ht.1, ht.2.1, fun hlegal => ih _ (ht.2.2 hlegal)⟩

theorem bind {γ : Type} {p : Proc Ans γ} {f : γ → Proc Ans β}
    (h : Safe S D i r (fun a t => Safe S D i r Q (f a) t) p s) :
    Safe S D i r Q (p >>= f) s := by
  induction p generalizing s with
  | done a => exact h
  | await op k ih =>
    intro t hrely hinv
    have ht := h t hrely hinv
    split at ht
    · exact ht
    · exact ⟨ht.1, ht.2.1, fun hlegal => ih _ (ht.2.2 hlegal)⟩

/-- The same for a process that may throw: what it throws goes past the continuation. -/
theorem except_bind {ε γ : Type} {Q : Except ε β → σ → Prop} {x : ExceptT ε (Proc Ans) γ}
    {f : γ → ExceptT ε (Proc Ans) β}
    (h : Safe S D i r (fun res t =>
      (∀ c, res = .ok c → Safe S D i r Q (f c).run t) ∧
      (∀ e, res = .error e → Q (.error e) t)) x.run s) :
    Safe S D i r Q (x >>= f).run s := by
  rw [ExceptT.run_bind]
  refine Safe.bind (Safe.mono h ?_)
  intro res t hres
  cases res with
  | ok c => exact hres.1 c rfl
  | error e => exact hres.2 e rfl

/-- A safe process stays safe while the others run. -/
theorem others {p : Proc Ans β} {t : σ} (h : Safe S D i r Q p s)
    (hq : ∀ a, Q a s → Q a t) (hrely : D.rely i r s t) : Safe S D i r Q p t := by
  cases p with
  | done a => exact hq a h
  | await op k => exact fun u htu => h u (D.trans i r s t u hrely htu)

end Safe

/-- Every request starts a safe process, and the postconditions outlast the other
processes. -/
structure Verified (Q : Nat → ρ → α → σ → Prop) : Prop where
  start : ∀ i r s, D.inv s → D.unborn i r s → T.admits i r s →
    Safe S D i r (Q i r) (S.handler i r) s
  stable : ∀ i r a s t, D.rely i r s t → Q i r a s → Q i r a t
  crash : ∀ i r s, T.faulty i r → Q i r S.crash s

/-- A turn as the terms have it: an operation that is answered is a legal one, and one that
is not belongs to a process that may see a failure. -/
def Meets (T : Terms σ ρ Op) (p : Pool σ Ans ρ α) : Turn ρ → Prop
  | .arrive r => T.admits p.tasks.length r p.shared ∧
      ∀ i r', p.request i = some r' → T.apart r' r ∧ T.apart r r'
  | .serve i d => ∀ r op, p.request i = some r → p.awaiting i = some op →
      if d = .intact then T.legal i r op p.shared else T.faulty i r

/-- The turn is decided by the requests that are there. -/
instance (p : Pool σ Ans ρ α) (turn : Turn ρ) [∀ i r s, Decidable (T.admits i r s)]
    [∀ r r', Decidable (T.apart r r')] [∀ i r op s, Decidable (T.legal i r op s)]
    [∀ i r, Decidable (T.faulty i r)] : Decidable (Meets T p turn) :=
  match turn with
  | .arrive r => decidable_of_iff
      (T.admits p.tasks.length r p.shared ∧
        ∀ task ∈ p.tasks, T.apart task.request r ∧ T.apart r task.request)
      (and_congr_right (fun _ =>
        (p.forall_request (C := fun r' => T.apart r' r ∧ T.apart r r')).symm))
  | .serve i d => decidable_of_iff
      (∀ r ∈ p.request i, ∀ op ∈ p.awaiting i,
        if d = .intact then T.legal i r op p.shared else T.faulty i r)
      ⟨fun h r op hr hop => h r hr op hop, fun h r hr op hop => h r op hr hop⟩

/-- The same terms for one run, where a legal operation is one that a turn of the run
answers in just that state. -/
def Terms.during (T : Terms σ ρ Op) (p : Pool σ Ans ρ α) (turns : List (Turn ρ)) :
    Terms σ ρ Op where
  admits := T.admits
  apart := T.apart
  legal i r op t := T.legal i r op t ∧ ∃ before after, turns = before ++ .serve i .intact :: after ∧
    (S.run p before).request i = some r ∧ (S.run p before).awaiting i = some op ∧
    (S.run p before).shared = t
  faulty := T.faulty

/-- A pool in which every process is safe where it stands. -/
structure Sound (Q : Nat → ρ → α → σ → Prop) (p : Pool σ Ans ρ α) : Prop where
  inv : D.inv p.shared
  unborn : ∀ i r, p.tasks.length ≤ i → (∀ j r', p.request j = some r' → T.apart r' r) →
    D.unborn i r p.shared
  apart : ∀ i j r r', p.request i = some r → p.request j = some r' → i ≠ j → T.apart r r'
  safe : ∀ (i : Nat) task, p.tasks[i]? = some task →
    Safe S D i task.request (Q i task.request) task.proc p.shared

section Rule

variable {S D} {Q : Nat → ρ → α → σ → Prop} {p : Pool σ Ans ρ α}

theorem Meets.during {turns : List (Turn ρ)} (h : S.Along (Meets T) p turns) :
    S.Along (Meets (T.during S p turns)) p turns := by
  rw [Service.along_iff] at h ⊢
  intro before turn after he
  have hturn := h before turn after he
  cases turn with
  | arrive r => exact hturn
  | serve i d =>
    intro r op hr hop
    have hmeets := hturn r op hr hop
    split at hmeets
    · rename_i hd
      rw [if_pos hd]
      subst hd
      exact ⟨hmeets, before, after, he, hr, hop, rfl⟩
    · rename_i hd
      rw [if_neg hd]
      exact hmeets

theorem Sound.answered (h : Sound S D Q p) {i : Nat} {r : ρ} {a : α}
    (hr : p.request i = some r) (ha : p.reply i = some a) : Q i r a p.shared := by
  obtain ⟨task, ht, rfl⟩ := Option.map_eq_some_iff.mp hr
  have hs := h.safe i task ht
  rw [Pool.reply, ht, Option.bind_some] at ha
  cases hp : task.proc with
  | done b =>
    rw [hp] at ha hs
    cases ha
    exact hs
  | await op k =>
    rw [hp] at ha
    cases ha

theorem Sound.meets {i : Nat} {d : Delivery} {task : Task Ans ρ α} (hm : Meets T p (.serve i d))
    (ht : p.tasks[i]? = some task) (op : Op) (hop : task.proc.pending = some op) :
    if d = .intact then T.legal i task.request op p.shared else T.faulty i task.request :=
  hm task.request op (by rw [Pool.request, ht, Option.map_some])
    (by rw [Pool.awaiting, ht, Option.bind_some, hop])

/-- What one operation of a safe process comes to: the state it leaves, and the process. -/
theorem Safe.advance (hv : Verified S D Q) {i : Nat} {r : ρ} {proc : Proc Ans α} {s : σ}
    {d : Delivery} (h : Safe S D i r (Q i r) proc s) (hinv : D.inv s)
    (hm : ∀ op, proc.pending = some op →
      if d = .intact then T.legal i r op s else T.faulty i r) :
    D.inv (S.advance d s proc).1 ∧
      ((S.advance d s proc).1 = s ∨ D.guar i r s (S.advance d s proc).1) ∧
      Safe S D i r (Q i r) (S.advance d s proc).2 (S.advance d s proc).1 := by
  cases proc with
  | done a => exact ⟨hinv, .inl rfl, h⟩
  | await op k =>
    have hmeets := hm op rfl
    have ht := h s (D.refl i r s) hinv
    split at ht
    · rename_i hnone
      rw [Service.advance_of_none hnone]
      refine ⟨hinv, .inl rfl, hv.crash i r s ?_⟩
      split at hmeets
      · exact ht hmeets
      · exact hmeets
    · rename_i b u hsome
      obtain ⟨hinv', hguar, hsafe⟩ := ht
      rw [Service.advance_of_some hsome]
      cases d with
      | intact => exact ⟨hinv', .inr hguar, hsafe hmeets⟩
      | refused => exact ⟨hinv, .inl rfl, hv.crash i r s hmeets⟩
      | lost => exact ⟨hinv', .inr hguar, hv.crash i r u hmeets⟩

/-- The state after a turn: as it was, or one operation of one process further. -/
theorem Sound.step_shared (hv : Verified S D Q) (h : Sound S D Q p) {turn : Turn ρ}
    (hm : Meets T p turn) :
    (S.step p turn).shared = p.shared ∨ ∃ i d r, turn = .serve i d ∧ p.request i = some r ∧
      D.guar i r p.shared (S.step p turn).shared := by
  cases turn with
  | arrive r => exact .inl rfl
  | serve i d =>
    simp only [Service.step]
    split
    · exact .inl rfl
    · rename_i task ht
      obtain ⟨_, hor, _⟩ := (h.safe i task ht).advance hv h.inv (Sound.meets hm ht)
      rcases hor with heq | hguar
      · exact .inl heq
      · exact .inr ⟨i, d, task.request, rfl, by rw [Pool.request, ht, Option.map_some], hguar⟩

theorem Sound.step_apart (h : Sound S D Q p) {turn : Turn ρ} (hm : Meets T p turn) {i j : Nat}
    {r r' : ρ} (hr : (S.step p turn).request i = some r)
    (hr' : (S.step p turn).request j = some r') (hij : i ≠ j) : T.apart r r' := by
  rcases Service.step_request.mp hr with hi | ⟨hi, hturn⟩
  · rcases Service.step_request.mp hr' with hj | ⟨_, hturn⟩
    · exact h.apart i j r r' hi hj hij
    · subst hturn
      exact (hm.2 i r hi).1
  · subst hturn
    rcases Service.step_request.mp hr' with hj | ⟨hj, _⟩
    · exact (hm.2 j r' hj).2
    · omega

/-- What a turn of another process leaves a process to count on. -/
theorem Sound.step_rely (hv : Verified S D Q) (h : Sound S D Q p) {i j : Nat} {d : Delivery}
    {r : ρ} (hm : Meets T p (.serve i d)) (hij : i ≠ j)
    (hr : ∀ r', p.request i = some r' → T.apart r' r) :
    D.rely j r p.shared (S.step p (.serve i d)).shared := by
  rcases h.step_shared hv hm with heq | ⟨i', _, r', hturn, hr', hguar⟩
  · rw [heq]
    exact D.refl j r _
  · cases hturn
    exact D.compat i j r' r _ _ hij (hr r' hr') hguar

theorem Sound.arrive (hv : Verified S D Q) (h : Sound S D Q p) {r : ρ}
    (hm : Meets T p (.arrive r)) : Sound S D Q (S.step p (.arrive r)) where
  inv := h.inv
  unborn i r' hi hr' := by
    simp only [Service.step, List.length_append, List.length_singleton] at hi
    exact h.unborn i r' (by omega) (fun j q hq => hr' j q (Service.step_request.mpr (.inl hq)))
  apart _ _ _ _ := h.step_apart hm
  safe i task ht := by
    simp only [Service.step] at ht ⊢
    rw [List.getElem?_append] at ht
    split at ht
    · exact h.safe i task ht
    · rw [List.getElem?_singleton] at ht
      split at ht
      · cases ht
        have hi : i = p.tasks.length := by omega
        subst hi
        exact hv.start _ r p.shared h.inv
          (h.unborn _ r (Nat.le_refl _) (fun j q hq => (hm.2 j q hq).1)) hm.1
      · cases ht

theorem Sound.serve (hv : Verified S D Q) (h : Sound S D Q p) {i : Nat} {d : Delivery}
    (hm : Meets T p (.serve i d)) : Sound S D Q (S.step p (.serve i d)) := by
  have hapart : ∀ j k r r', (S.step p (.serve i d)).request j = some r →
      (S.step p (.serve i d)).request k = some r' → j ≠ k → T.apart r r' :=
    fun _ _ _ _ => h.step_apart hm
  have hrely := fun j r hij hr => h.step_rely hv hm (j := j) (r := r) hij hr
  simp only [Service.step] at hapart hrely ⊢
  split
  · exact h
  · rename_i task ht
    have hreq : p.request i = some task.request := by rw [Pool.request, ht, Option.map_some]
    simp only [ht] at hrely hapart
    obtain ⟨hinv, _, hsafe⟩ := (h.safe i task ht).advance hv h.inv (Sound.meets hm ht)
    have hi : i < p.tasks.length := Service.request_isSome hreq
    refine ⟨hinv, ?_, hapart, ?_⟩
    · intro j r hj hr
      simp only [List.length_set] at hj
      have hkeep : ∀ k q, p.request k = some q → T.apart q r := by
        intro k q hq
        refine hr k q ?_
        have hstep : (S.step p (.serve i d)).request k = some q :=
          Service.step_request.mpr (.inl hq)
        simp only [Service.step, ht] at hstep
        exact hstep
      exact D.unborn_rely j r _ _ (hrely j r (by omega) (hkeep i)) (h.unborn j r hj hkeep)
    · intro j other hother
      rw [List.getElem?_set] at hother
      split at hother
      · rename_i hij
        subst hij
        cases hother
        exact hsafe
      · rename_i hij
        have hreq' : p.request j = some other.request := by
          rw [Pool.request, hother, Option.map_some]
        have hr := hrely j other.request hij
          (fun q hq => h.apart i j q other.request hq hreq' hij)
        exact (h.safe j other hother).others (fun a => hv.stable j _ a _ _ hr) hr

theorem Sound.step (hv : Verified S D Q) (h : Sound S D Q p) {turn : Turn ρ}
    (hm : Meets T p turn) : Sound S D Q (S.step p turn) := by
  cases turn with
  | arrive r => exact h.arrive hv hm
  | serve i d => exact h.serve hv hm

theorem Sound.run (hv : Verified S D Q) (h : Sound S D Q p) {turns : List (Turn ρ)}
    (hm : S.Along (Meets T) p turns) : Sound S D Q (S.run p turns) := by
  induction turns generalizing p with
  | nil => exact h
  | cons t ts ih => exact ih (h.step hv hm.1) hm.2

/-- A relation that holds across every guarantee holds across a run. -/
theorem Sound.run_rel {R : σ → σ → Prop} [Std.Refl R] [IsTrans σ R] (hv : Verified S D Q)
    (hguar : ∀ i r s t, D.guar i r s t → R s t) (h : Sound S D Q p) {turns : List (Turn ρ)}
    (hm : S.Along (Meets T) p turns) : R p.shared (S.run p turns).shared := by
  refine Service.run_rel (Service.along_iff.mpr ?_)
  intro before turn after he
  subst he
  obtain ⟨hbefore, hturn, _⟩ := Service.along_append.mp hm
  have hsound := h.run hv hbefore
  rcases hsound.step_shared hv hturn with heq | ⟨i, d, r, _, _, hstep⟩
  · rw [heq]
    exact refl_of R _
  · exact hguar i r _ _ hstep

/-- What a process keeps true from its start on, whatever step is taken. -/
theorem Sound.run_own {I : Nat → ρ → σ → Prop} (hv : Verified S D Q)
    (hborn : ∀ i r s, D.unborn i r s → I i r s)
    (hguar : ∀ i r s t, D.guar i r s t → I i r s → I i r t)
    (hrely : ∀ i r s t, D.rely i r s t → I i r s → I i r t)
    (h : Sound S D Q p) {turns : List (Turn ρ)} (hm : S.Along (Meets T) p turns)
    (hown : ∀ i r, p.request i = some r → I i r p.shared) :
    ∀ i r, (S.run p turns).request i = some r → I i r (S.run p turns).shared := by
  induction turns generalizing p with
  | nil => exact hown
  | cons t ts ih =>
    refine ih (h.step hv hm.1) hm.2 ?_
    intro j r hr
    rcases Service.step_request.mp hr with hr | ⟨hj, hturn⟩
    · have hold := hown j r hr
      rcases h.step_shared hv hm.1 with heq | ⟨i, d, r', _, hr', hstep⟩
      · rw [heq]
        exact hold
      · by_cases hij : i = j
        · subst hij
          rw [hr] at hr'
          cases hr'
          exact hguar _ _ _ _ hstep hold
        · exact hrely j _ _ _ (D.compat i j _ _ _ _ hij (h.apart i j r' r hr' hr hij) hstep) hold
    · subst hturn
      exact hborn j r _ (h.unborn j r (by omega) (fun k q hq => (hm.1.2 k q hq).1))

theorem Sound.fresh {s : σ} (hinv : D.inv s) (hunborn : ∀ i r, D.unborn i r s) :
    Sound S D Q (Service.fresh s) where
  inv := hinv
  unborn i r _ _ := hunborn i r
  apart i _ _ _ hr := by simp [Service.fresh, Pool.request] at hr
  safe i _ ht := by simp [Service.fresh] at ht

end Rule

end Seance.Lib
