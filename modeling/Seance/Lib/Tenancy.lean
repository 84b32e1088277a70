import Mathlib.Logic.Function.Basic

namespace Seance.Lib

/-- How far a tenant of a key has come. -/
inductive Phase
  | entering
  | active
  | past
  | refused
  deriving DecidableEq

/-- Tenants that take a key one after another: each writes under its key first, then takes hold
of the key if nobody has it, and at some time is over. A tenant without a phase has not begun. -/
structure Tenancy (ι κ : Type) where
  phase : ι → Option (Phase × κ)
  writer : κ → Option ι
  holder : κ → Option ι

namespace Tenancy

variable {ι κ : Type} {s t : Tenancy ι κ}

/-- A key has one tenant at a time, who may hold it; and once it is over, another one that has
begun has written over what it had written. -/
structure Apart (s : Tenancy ι κ) : Prop where
  sole : ∀ i j k, s.phase i = some (.active, k) → s.phase j = some (.active, k) → i = j
  holds : ∀ i k, s.holder k = some i → s.phase i = some (.active, k)
  begun : ∀ i k, s.writer k = some i → s.phase i ≠ none
  written : ∀ i k, s.writer k = some i → s.phase i = some (.past, k) →
    ∀ j, s.phase j ≠ some (.entering, k) ∧ s.phase j ≠ some (.active, k)
  keyed : ∀ i k, s.writer k = some i → ∀ p k', s.phase i = some (p, k') → k' = k

/-- The tenant has been refused, or finds the key's last tenant still there. -/
def Doomed (s : Tenancy ι κ) (i : ι) : Prop :=
  (∃ k, s.phase i = some (.refused, k)) ∨
    ∃ k m, s.phase i = some (.entering, k) ∧ s.phase m = some (.active, k)

/-- Whoever held the key of an active tenant would be a second tenant of it. -/
theorem Apart.free {i : ι} {k : κ} (h : Apart s) (hi : s.phase i = some (.active, k))
    (gone : s.holder k ≠ some i) : s.holder k = none := by
  cases hh : s.holder k with
  | none => rfl
  | some m =>
    have hsame := h.sole m i k (h.holds m k hh) hi
    rw [hh, hsame] at gone
    exact absurd rfl gone

section Advance

variable [DecidableEq ι] {i : ι} {k : κ} {p q : Phase}

/-- What a tenant that goes on leaves alone. -/
theorem phase_of_advance (hphase : t.phase = Function.update s.phase i (some (q, k)))
    (hp : p ≠ q) {j : ι} {k' : κ} (hj : t.phase j = some (p, k')) : s.phase j = some (p, k') := by
  rw [hphase, Function.update_apply] at hj
  split at hj
  · cases hj
    exact absurd rfl hp
  · exact hj

theorem Apart.begun_advance (h : Apart s)
    (hphase : t.phase = Function.update s.phase i (some (q, k))) (hw : t.writer = s.writer) :
    ∀ j k', t.writer k' = some j → t.phase j ≠ none := by
  intro j k' hj
  rw [hw] at hj
  rw [hphase, Function.update_apply]
  split
  · simp
  · exact h.begun j k' hj

theorem Apart.keyed_advance (h : Apart s) (hi : s.phase i = some (p, k))
    (hphase : t.phase = Function.update s.phase i (some (q, k))) (hw : t.writer = s.writer) :
    ∀ j k', t.writer k' = some j → ∀ p' k'', t.phase j = some (p', k'') → k'' = k' := by
  intro j k' hj p' k'' hp
  rw [hw] at hj
  rw [hphase, Function.update_apply] at hp
  split at hp
  · rename_i hji
    subst hji
    cases hp
    exact h.keyed _ _ hj _ _ hi
  · exact h.keyed j k' hj p' k'' hp

/-- A tenant that is not active holds nothing, so its going on takes nothing from a holder. -/
theorem Apart.holds_advance (h : Apart s) (hi : ∀ k', s.phase i = some (.active, k') →
      s.holder k' ≠ some i)
    (hphase : t.phase = Function.update s.phase i (some (q, k))) (ho : t.holder = s.holder) :
    ∀ j k', t.holder k' = some j → t.phase j = some (.active, k') := by
  intro j k' hj
  rw [ho] at hj
  have hold := h.holds j k' hj
  rw [hphase, Function.update_of_ne]
  · exact hold
  · rintro rfl
    exact hi k' hold hj

theorem Apart.refuse (h : Apart s) (enters : s.phase i = some (.entering, k))
    (phase : t.phase = Function.update s.phase i (some (.refused, k)))
    (writer : t.writer = s.writer) (holder : t.holder = s.holder) : Apart t where
  sole i' j k' hi hj :=
    h.sole i' j k' (phase_of_advance phase (by decide) hi) (phase_of_advance phase (by decide) hj)
  holds := h.holds_advance (fun k' hi => by rw [enters] at hi; cases hi) phase holder
  begun := h.begun_advance phase writer
  written := by
    intro j k' hj hpast j'
    rw [writer] at hj
    have hold := h.written j k' hj (phase_of_advance phase (by decide) hpast) j'
    exact ⟨fun he => hold.1 (phase_of_advance phase (by decide) he),
      fun he => hold.2 (phase_of_advance phase (by decide) he)⟩
  keyed := h.keyed_advance enters phase writer

theorem Apart.leave (h : Apart s) (stays : s.phase i = some (.active, k))
    (gone : s.holder k ≠ some i)
    (alone : s.holder k = none → ∀ j, s.phase j ≠ some (.entering, k))
    (phase : t.phase = Function.update s.phase i (some (.past, k)))
    (writer : t.writer = s.writer) (holder : t.holder = s.holder) : Apart t where
  sole i' j k' hi hj :=
    h.sole i' j k' (phase_of_advance phase (by decide) hi) (phase_of_advance phase (by decide) hj)
  holds := by
    refine h.holds_advance (fun k' hi => ?_) phase holder
    rw [stays] at hi
    cases hi
    exact gone
  begun := h.begun_advance phase writer
  written := by
    intro j k' hj hpast j'
    rw [writer] at hj
    by_cases hji : j = i
    · subst hji
      obtain rfl : k = k' := h.keyed j k' hj _ _ stays
      refine ⟨fun he => alone (h.free stays gone) j' (phase_of_advance phase (by decide) he), ?_⟩
      intro hact
      have hsame := h.sole j' j k (phase_of_advance phase (by decide) hact) stays
      rw [phase, hsame, Function.update_self] at hact
      cases hact
    · rw [phase, Function.update_of_ne hji] at hpast
      have hold := h.written j k' hj hpast j'
      exact ⟨fun he => hold.1 (phase_of_advance phase (by decide) he),
        fun he => hold.2 (phase_of_advance phase (by decide) he)⟩
  keyed := h.keyed_advance stays phase writer

end Advance

section Moves

variable [DecidableEq ι] [DecidableEq κ]

/-- The moves in which tenants keep out of each other's way: a key is taken hold of only when its
earlier tenants are over, and no tenant of a free key becomes past while another one enters. -/
inductive Move (s t : Tenancy ι κ) : Prop
  | same (phase : t.phase = s.phase) (writer : t.writer = s.writer) (holder : t.holder = s.holder)
  | enter (i : ι) (k : κ) (begins : s.phase i = none)
      (phase : t.phase = Function.update s.phase i (some (.entering, k)))
      (writer : t.writer = Function.update s.writer k (some i)) (holder : t.holder = s.holder)
  | take (i : ι) (k : κ) (enters : s.phase i = some (.entering, k)) (free : s.holder k = none)
      (alone : ∀ j, s.phase j ≠ some (.active, k))
      (phase : t.phase = Function.update s.phase i (some (.active, k)))
      (writer : t.writer = s.writer) (holder : t.holder = Function.update s.holder k (some i))
  | refuse (i : ι) (k : κ) (enters : s.phase i = some (.entering, k))
      (phase : t.phase = Function.update s.phase i (some (.refused, k)))
      (writer : t.writer = s.writer) (holder : t.holder = s.holder)
  | release (k : κ) (phase : t.phase = s.phase) (writer : t.writer = s.writer)
      (holder : t.holder = Function.update s.holder k none)
  | leave (i : ι) (k : κ) (stays : s.phase i = some (.active, k)) (gone : s.holder k ≠ some i)
      (alone : s.holder k = none → ∀ j, s.phase j ≠ some (.entering, k))
      (phase : t.phase = Function.update s.phase i (some (.past, k)))
      (writer : t.writer = s.writer) (holder : t.holder = s.holder)

variable {i : ι} {k : κ}

theorem Apart.enter (h : Apart s) (begins : s.phase i = none)
    (phase : t.phase = Function.update s.phase i (some (.entering, k)))
    (writer : t.writer = Function.update s.writer k (some i)) (holder : t.holder = s.holder) :
    Apart t where
  sole i' j k' hi hj :=
    h.sole i' j k' (phase_of_advance phase (by decide) hi) (phase_of_advance phase (by decide) hj)
  holds := h.holds_advance (fun k' hi => by rw [begins] at hi; cases hi) phase holder
  begun := by
    intro j k' hj
    rw [writer, Function.update_apply] at hj
    rw [phase, Function.update_apply]
    split
    · simp
    · rename_i hne
      split at hj
      · exact absurd (Option.some.inj hj).symm hne
      · exact h.begun j k' hj
  written := by
    intro j k' hj hpast j'
    have hpast' := phase_of_advance phase (by decide) hpast
    rw [writer, Function.update_apply] at hj
    split at hj
    · cases hj
      rw [begins] at hpast'
      cases hpast'
    · rename_i hk
      have hold := h.written j k' hj hpast' j'
      refine ⟨?_, fun hact => hold.2 (phase_of_advance phase (by decide) hact)⟩
      rw [phase, Function.update_apply]
      split
      · simpa using fun he => hk he.symm
      · exact hold.1
  keyed := by
    intro j k' hj p k'' hp
    rw [writer, Function.update_apply] at hj
    rw [phase, Function.update_apply] at hp
    split at hj
    · rename_i hk
      cases hj
      rw [if_pos rfl] at hp
      cases hp
      exact hk.symm
    · split at hp
      · rename_i hji
        subst hji
        exact absurd begins (h.begun _ _ hj)
      · exact h.keyed j k' hj p k'' hp

theorem Apart.take (h : Apart s) (enters : s.phase i = some (.entering, k))
    (alone : ∀ j, s.phase j ≠ some (.active, k))
    (phase : t.phase = Function.update s.phase i (some (.active, k)))
    (writer : t.writer = s.writer) (holder : t.holder = Function.update s.holder k (some i)) :
    Apart t := by
  have hactive : ∀ j k', t.phase j = some (.active, k') →
      j = i ∧ k' = k ∨ k' ≠ k ∧ s.phase j = some (.active, k') := by
    intro j k' hj
    rw [phase, Function.update_apply] at hj
    split at hj
    · rename_i hji
      cases hj
      exact .inl ⟨hji, rfl⟩
    · right
      refine ⟨?_, hj⟩
      rintro rfl
      exact alone j hj
  refine ⟨?_, ?_, h.begun_advance phase writer, ?_, h.keyed_advance enters phase writer⟩
  · intro i' j k' hi hj
    rcases hactive i' k' hi with ⟨hi, hk⟩ | ⟨hk, hi⟩
    · rcases hactive j k' hj with ⟨hj, _⟩ | ⟨hk', _⟩
      · exact hi.trans hj.symm
      · exact absurd hk hk'
    · rcases hactive j k' hj with ⟨_, hk'⟩ | ⟨_, hj⟩
      · exact absurd hk' hk
      · exact h.sole i' j k' hi hj
  · intro j k' hj
    rw [holder, Function.update_apply] at hj
    rw [phase, Function.update_apply]
    split at hj
    · rename_i hk
      cases hj
      rw [if_pos rfl, hk]
    · have hold := h.holds j k' hj
      split
      · rename_i hji
        rw [hji, enters] at hold
        cases hold
      · exact hold
  · intro j k' hj hpast j'
    rw [writer] at hj
    have hold := h.written j k' hj (phase_of_advance phase (by decide) hpast)
    refine ⟨fun he => (hold j').1 (phase_of_advance phase (by decide) he), ?_⟩
    intro hact
    rcases hactive j' k' hact with ⟨_, rfl⟩ | ⟨_, hact⟩
    · exact (hold i).1 enters
    · exact (hold j').2 hact

theorem Apart.move (h : Apart s) (hm : Move s t) : Apart t := by
  cases hm with
  | same phase writer holder =>
    obtain ⟨p, w, o⟩ := t
    dsimp only at phase writer holder
    subst phase writer holder
    exact h
  | enter i k begins phase writer holder => exact h.enter begins phase writer holder
  | take i k enters _ alone phase writer holder => exact h.take enters alone phase writer holder
  | refuse i k enters phase writer holder => exact h.refuse enters phase writer holder
  | leave i k stays gone alone phase writer holder =>
    exact h.leave stays gone alone phase writer holder
  | release k phase writer holder =>
    refine ⟨phase ▸ h.sole, ?_, ?_, ?_, ?_⟩
    · intro j k' hj
      rw [holder, Function.update_apply] at hj
      rw [phase]
      split at hj
      · cases hj
      · exact h.holds j k' hj
    · rw [phase, writer]
      exact h.begun
    · rw [phase, writer]
      exact h.written
    · rw [phase, writer]
      exact h.keyed

theorem Doomed.move {j : ι} (h : Doomed s j) (ha : Apart s) (hm : Move s t) : Doomed t j := by
  have hstays : ∀ {i : ι} {k : κ} {q : Phase},
      t.phase = Function.update s.phase i (some (q, k)) → ∀ {x : ι} {v}, s.phase x = some v →
      s.phase i ≠ some v → t.phase x = some v := by
    intro i k q hphase x v hx hne
    rw [hphase, Function.update_of_ne]
    · exact hx
    · rintro rfl
      exact hne hx
  rcases h with ⟨k', hr⟩ | ⟨k', m, he, hm'⟩
  · left
    refine ⟨k', ?_⟩
    cases hm with
    | same phase => rw [phase, hr]
    | enter i k begins phase => exact hstays phase hr (by simp [begins])
    | take i k enters _ _ phase => exact hstays phase hr (by simp [enters])
    | refuse i k enters phase => exact hstays phase hr (by simp [enters])
    | release k phase => rw [phase, hr]
    | leave i k stays _ _ phase => exact hstays phase hr (by simp [stays])
  · cases hm with
    | same phase =>
      refine .inr ⟨k', m, ?_⟩
      rw [phase]
      exact ⟨he, hm'⟩
    | enter i k begins phase =>
      exact .inr ⟨k', m, hstays phase he (by simp [begins]), hstays phase hm' (by simp [begins])⟩
    | take i k enters _ alone phase =>
      right
      refine ⟨k', m, ?_, hstays phase hm' (by simp [enters])⟩
      rw [phase, Function.update_of_ne]
      · exact he
      · rintro rfl
        rw [enters] at he
        cases he
        exact alone m hm'
    | refuse i k enters phase =>
      by_cases hji : j = i
      · subst hji
        exact .inl ⟨k, by rw [phase, Function.update_self]⟩
      · refine .inr ⟨k', m, ?_, hstays phase hm' (by simp [enters])⟩
        rw [phase, Function.update_of_ne hji]
        exact he
    | release k phase =>
      refine .inr ⟨k', m, ?_⟩
      rw [phase]
      exact ⟨he, hm'⟩
    | leave i k stays gone alone phase =>
      refine .inr ⟨k', m, hstays phase he (by simp [stays]), ?_⟩
      rw [phase, Function.update_of_ne]
      · exact hm'
      · rintro rfl
        rw [stays] at hm'
        cases hm'
        exact alone (ha.free stays gone) j he

end Moves

end Tenancy

end Seance.Lib
