import Mathlib.Data.List.Basic

namespace Seance.Lib

/-- The two ends of a channel: whether the receiver is still there, and what it has been sent. -/
structure Mailbox (V : Type) where
  live : Bool
  messages : List V
  deriving DecidableEq

def Mailbox.deliver {V : Type} (v : V) (c : Mailbox V) : Mailbox V :=
  if c.live then { c with messages := c.messages ++ [v] } else c

/-- A value under one lock and the channels it is sent to under another. -/
structure Posted (V : Type) where
  value : V
  mailboxes : List (Mailbox V)
  subscribers : List Nat
  deriving DecidableEq

namespace Posted

variable {V : Type}

def alive (p : Posted V) (i : Nat) : Bool := (p.mailboxes[i]?).any Mailbox.live

/-- What a channel was sent last. -/
def last (p : Posted V) (i : Nat) : Option V :=
  (p.mailboxes[i]?).bind (fun c => c.messages.getLast?)

def set (v : V) (p : Posted V) : Posted V := { p with value := v }

/-- A sending to all forgets the subscribers that are gone. -/
def send (v : V) (p : Posted V) : Posted V :=
  { p with
    mailboxes := p.mailboxes.mapIdx (fun i c => if i ∈ p.subscribers then c.deliver v else c)
    subscribers := p.subscribers.filter p.alive }

/-- A new channel is sent the value before it is registered. -/
def create (p : Posted V) : Posted V :=
  { p with mailboxes := p.mailboxes ++ [⟨true, [p.value]⟩] }

def register (i : Nat) (p : Posted V) : Posted V := { p with subscribers := p.subscribers ++ [i] }

def drop (i : Nat) (p : Posted V) : Posted V :=
  { p with mailboxes := p.mailboxes.modify i (fun c => { c with live := false }) }

/-- The channel is gone, or was sent the value as it is. -/
def Reached (p : Posted V) (i : Nat) : Prop := p.alive i = true → p.last i = some p.value

instance [DecidableEq V] (p : Posted V) (i : Nat) : Decidable (p.Reached i) :=
  inferInstanceAs (Decidable (_ → _))

/-- Every subscriber that is still there was sent the value as it is. -/
def Told (p : Posted V) : Prop := ∀ i ∈ p.subscribers, p.Reached i

/-- Every channel that is still there is registered, or about to be. -/
def Enrolled (registering : Nat → Prop) (p : Posted V) : Prop :=
  ∀ i, p.alive i = true → i ∈ p.subscribers ∨ registering i

theorem told_of_unwatched {p : Posted V} (h : ∀ i ∈ p.subscribers, p.alive i = false) : p.Told := by
  intro i hi halive
  rw [h i hi] at halive
  cases halive

section Send

variable (v : V) (p : Posted V) (i : Nat)

theorem mailboxes_send :
    (p.send v).mailboxes[i]? =
      (p.mailboxes[i]?).map (fun c => if i ∈ p.subscribers then c.deliver v else c) :=
  List.getElem?_mapIdx

theorem deliver_live (c : Mailbox V) : (c.deliver v).live = c.live := by
  unfold Mailbox.deliver
  split <;> rfl

@[simp] theorem alive_send : (p.send v).alive i = p.alive i := by
  unfold alive
  rw [mailboxes_send]
  cases p.mailboxes[i]? with
  | none => rfl
  | some c =>
    simp only [Option.map_some, Option.any_some]
    split
    · exact deliver_live v c
    · rfl

variable {v p i}

theorem last_send (hi : i ∈ p.subscribers) (halive : p.alive i = true) :
    (p.send v).last i = some v := by
  obtain ⟨c, hc, hlive⟩ := (Option.any_eq_true _ _).mp halive
  unfold last
  rw [mailboxes_send, hc, Option.map_some, if_pos hi, Option.bind_some]
  unfold Mailbox.deliver
  rw [if_pos hlive]
  exact List.getLast?_concat

theorem mem_subscribers_send :
    i ∈ (p.send v).subscribers ↔ i ∈ p.subscribers ∧ p.alive i = true :=
  List.mem_filter

theorem told_send (p : Posted V) : (p.send p.value).Told := by
  intro i hi halive
  exact last_send (mem_subscribers_send.mp hi).1 (mem_subscribers_send.mp hi).2

theorem enrolled_send {registering : Nat → Prop} (h : p.Enrolled registering) (v : V) :
    (p.send v).Enrolled registering := by
  intro i halive
  rw [alive_send] at halive
  rcases h i halive with hi | hi
  · exact .inl (mem_subscribers_send.mpr ⟨hi, halive⟩)
  · exact .inr hi

end Send

section Create

variable {p : Posted V} {i : Nat}

theorem mailboxes_create (p : Posted V) (i : Nat) :
    p.create.mailboxes[i]? = p.mailboxes[i]? ∨
      i = p.mailboxes.length ∧ p.create.mailboxes[i]? = some ⟨true, [p.value]⟩ := by
  unfold create
  rcases Nat.lt_trichotomy i p.mailboxes.length with h | h | h
  · exact .inl (List.getElem?_append_left h)
  · exact .inr ⟨h, by simp [h]⟩
  · left
    rw [List.getElem?_eq_none (by simp; omega), List.getElem?_eq_none (by omega)]

theorem told_create (h : p.Told) : p.create.Told := by
  intro i hi halive
  rcases mailboxes_create p i with hc | ⟨-, hc⟩
  · unfold last
    unfold alive at halive
    rw [hc] at halive ⊢
    exact h i hi halive
  · unfold last
    rw [hc]
    rfl

theorem reached_create (p : Posted V) : p.create.Reached p.mailboxes.length := by
  intro _
  unfold last create
  dsimp only
  rw [List.getElem?_concat_length]
  rfl

theorem enrolled_create {registering : Nat → Prop} (h : p.Enrolled registering)
    (hnew : registering p.mailboxes.length) : p.create.Enrolled registering := by
  intro i halive
  rcases mailboxes_create p i with hc | ⟨rfl, -⟩
  · unfold alive at halive
    rw [hc] at halive
    exact h i halive
  · exact .inr hnew

end Create

section Register

variable {p : Posted V} {i : Nat}

theorem told_register (h : p.Told) (hi : p.Reached i) : (p.register i).Told := by
  intro j hj
  rcases List.mem_append.mp hj with hj | hj
  · exact h j hj
  · rw [List.mem_singleton.mp hj]
    exact hi

theorem enrolled_register {registering registering' : Nat → Prop} (h : p.Enrolled registering)
    (hi : ∀ j, registering j → j = i ∨ registering' j) : (p.register i).Enrolled registering' := by
  intro j halive
  rcases h j halive with hj | hj
  · exact .inl (List.mem_append_left _ hj)
  · rcases hi j hj with rfl | hj
    · exact .inl (List.mem_append_right _ (List.mem_singleton_self j))
    · exact .inr hj

end Register

section Drop

variable {p : Posted V} {i j : Nat}

theorem mailboxes_drop (h : i ≠ j) : (p.drop i).mailboxes[j]? = p.mailboxes[j]? := by
  unfold drop
  simp [h]

theorem alive_drop (h : (p.drop i).alive j = true) : i ≠ j ∧ p.alive j = true := by
  by_cases hij : i = j
  · subst j
    unfold alive drop at h
    cases hc : p.mailboxes[i]? <;> simp [hc] at h
  · unfold alive at h
    rw [mailboxes_drop hij] at h
    exact ⟨hij, h⟩

theorem last_drop (h : i ≠ j) : (p.drop i).last j = p.last j := by
  unfold last
  rw [mailboxes_drop h]

theorem reached_drop (h : p.Reached j) (i : Nat) : (p.drop i).Reached j := by
  intro halive
  obtain ⟨hne, halive⟩ := alive_drop halive
  rw [last_drop hne]
  exact h halive

theorem told_drop (h : p.Told) (i : Nat) : (p.drop i).Told :=
  fun j hj => reached_drop (h j hj) i

theorem enrolled_drop {registering : Nat → Prop} (h : p.Enrolled registering) (i : Nat) :
    (p.drop i).Enrolled registering :=
  fun j halive => h j (alive_drop halive).2

end Drop

end Posted

end Seance.Lib
