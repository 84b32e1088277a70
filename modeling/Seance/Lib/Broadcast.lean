import Mathlib.Data.List.Basic

namespace Seance.Lib

/-- A value under a lock. An edit says besides its effect whether its caller goes on to read the
value out and to send it around; an edit nobody is told of is not seen by a reader. `O` is what a
reading depends on besides the value. -/
structure Board (σ E O V : Type) where
  edit : E → σ → σ × Bool
  read : O → σ → V
  quiet : ∀ e s o, (edit e s).2 = false → read o (edit e s).1 = read o s

/-- A value read out, with the number of announced edits it was read after. -/
structure Reading (V : Type) where
  value : V
  edits : Nat
  deriving DecidableEq

/-- Where a caller stands between two locks; without an addressee it sends to every subscriber. -/
inductive Stage (V : Type)
  | list (dest : Option Nat)
  | send (dest : Option Nat) (reading : Reading V)
  | done
  deriving DecidableEq

/-- The two ends of a channel: whether the receiver is still there, and what it has been sent. -/
structure Receiver (V : Type) where
  live : Bool
  received : List (Reading V)
  deriving DecidableEq

def Receiver.receive {V : Type} (r : Reading V) (c : Receiver V) : Receiver V :=
  if c.live then { c with received := c.received ++ [r] } else c

/-- The value with its subscribers and the callers at work. -/
structure Room (σ V : Type) where
  value : σ
  edits : Nat
  receivers : List (Receiver V)
  subscribers : List Nat
  tasks : List (Stage V)

inductive RoomAct (E O : Type)
  | edit (e : E)
  | subscribe
  | proceed (task : Nat) (order : O)
  | drop (receiver : Nat)

namespace Room

variable {σ E O V : Type}

def start (s : σ) : Room σ V := ⟨s, 0, [], [], []⟩

def alive (s : Room σ V) (i : Nat) : Bool := (s.receivers[i]?).any Receiver.live

/-- Whether a channel gets what is sent to this address. -/
def Addressed (s : Room σ V) (dest : Option Nat) (i : Nat) : Prop :=
  dest = some i ∨ dest = none ∧ i ∈ s.subscribers

instance (s : Room σ V) (dest : Option Nat) (i : Nat) : Decidable (s.Addressed dest i) :=
  inferInstanceAs (Decidable (_ ∨ _))

/-- A sending to all forgets the subscribers that are gone. -/
def deliver (dest : Option Nat) (r : Reading V) (s : Room σ V) : Room σ V :=
  { s with
    receivers := s.receivers.mapIdx (fun i c => if s.Addressed dest i then c.receive r else c)
    subscribers := match dest with
      | none => s.subscribers.filter s.alive
      | some _ => s.subscribers }

/-- One critical section of one caller. -/
def step (B : Board σ E O V) (s : Room σ V) : RoomAct E O → Room σ V
  | .edit e =>
    match B.edit e s.value with
    | (t, true) => { s with value := t, edits := s.edits + 1, tasks := s.tasks ++ [.list none] }
    | (t, false) => { s with value := t }
  | .subscribe =>
    { s with
      receivers := s.receivers ++ [⟨true, []⟩]
      subscribers := s.subscribers ++ [s.receivers.length]
      tasks := s.tasks ++ [.list (some s.receivers.length)] }
  | .proceed i o =>
    match s.tasks[i]? with
    | some (.list dest) => { s with tasks := s.tasks.set i (.send dest ⟨B.read o s.value, s.edits⟩) }
    | some (.send dest r) => { s.deliver dest r with tasks := s.tasks.set i .done }
    | _ => s
  | .drop i => { s with receivers := s.receivers.modify i (fun c => { c with live := false }) }

def run (B : Board σ E O V) (s : Room σ V) (acts : List (RoomAct E O)) : Room σ V :=
  acts.foldl (step B) s

/-- No call is in progress. -/
def Quiescent (s : Room σ V) : Prop := ∀ t ∈ s.tasks, t = .done

instance [DecidableEq V] (s : Room σ V) : Decidable s.Quiescent :=
  inferInstanceAs (Decidable (∀ t ∈ s.tasks, t = .done))

/-- What the receiver of a channel that is still there was sent last. -/
def last (s : Room σ V) (i : Nat) : Option V :=
  (s.receivers[i]?).bind (fun c => (c.received.getLast?).map Reading.value)

/-- The step sends no reading to a subscriber that has been sent a later one. -/
def InOrder (s : Room σ V) : RoomAct E O → Prop
  | .proceed i _ =>
    match s.tasks[i]? with
    | some (.send dest r) => ∀ j (h : j < s.receivers.length), s.Addressed dest j →
        s.receivers[j].live = true → ∀ q ∈ s.receivers[j].received, q.edits ≤ r.edits
    | _ => True
  | _ => True

instance (s : Room σ V) (a : RoomAct E O) : Decidable (s.InOrder a) := by
  unfold InOrder
  split
  · split <;> infer_instance
  · infer_instance

/-- Every step of the run sends in order. -/
def InOrderAlong (B : Board σ E O V) : Room σ V → List (RoomAct E O) → Prop
  | _, [] => True
  | s, a :: acts => s.InOrder a ∧ InOrderAlong B (s.step B a) acts

instance InOrderAlong.decidable (B : Board σ E O V) :
    ∀ (s : Room σ V) (acts : List (RoomAct E O)), Decidable (InOrderAlong B s acts)
  | _, [] => isTrue trivial
  | s, a :: acts =>
    have := InOrderAlong.decidable B (s.step B a) acts
    inferInstanceAs (Decidable (s.InOrder a ∧ InOrderAlong B (s.step B a) acts))

/-- A reading that is on its way or has arrived. -/
def Held (s : Room σ V) (r : Reading V) : Prop :=
  (∃ dest, .send dest r ∈ s.tasks) ∨ ∃ c ∈ s.receivers, r ∈ c.received

/-- The channel has been sent the value as it is, or a caller is about to do so. -/
def Told (s : Room σ V) (i : Nat) (c : Receiver V) : Prop :=
  (∃ r ∈ c.received, r.edits = s.edits) ∨
    ∃ dest, s.Addressed dest i ∧
      (.list dest ∈ s.tasks ∨ ∃ r, r.edits = s.edits ∧ .send dest r ∈ s.tasks)

/-- What holds after any steps: a subscriber stays registered, a reading made after the last edit
shows the value as it is, and nobody is forgotten. -/
structure Current (B : Board σ E O V) (s : Room σ V) : Prop where
  registered : ∀ i c, s.receivers[i]? = some c → c.live = true → i ∈ s.subscribers
  known : ∀ r, s.Held r → r.edits ≤ s.edits ∧
    (r.edits = s.edits → ∃ o, r.value = B.read o s.value)
  told : ∀ i c, s.receivers[i]? = some c → c.live = true → s.Told i c

def Ordered (s : Room σ V) : Prop :=
  ∀ c ∈ s.receivers, c.received.Pairwise (fun q r => q.edits ≤ r.edits)

/-- An entry other than the one that is overwritten stays. -/
theorem mem_set_of_ne {α : Type} {l : List α} {i : Nat} {a b x : α} (ha : l[i]? = some a)
    (hx : x ∈ l) (hne : x ≠ a) : x ∈ l.set i b := by
  obtain ⟨k, hk⟩ := List.mem_iff_getElem?.mp hx
  refine List.mem_iff_getElem?.mpr ⟨k, ?_⟩
  rw [List.getElem?_set_ne]
  · exact hk
  · rintro rfl
    rw [ha] at hk
    exact hne (Option.some.inj hk).symm

section Steps

variable {B : Board σ E O V} {s : Room σ V}

/-- What a channel is after a delivery. -/
theorem deliver_receiver {dest : Option Nat} {r : Reading V} {i : Nat} {c' : Receiver V}
    (h : (s.deliver dest r).receivers[i]? = some c') :
    ∃ c, s.receivers[i]? = some c ∧ c'.live = c.live ∧
      (c' = c ∧ (c.live = true → ¬ s.Addressed dest i) ∨
        s.Addressed dest i ∧ c.live = true ∧ c'.received = c.received ++ [r]) := by
  unfold deliver at h
  rw [List.getElem?_mapIdx, Option.map_eq_some_iff] at h
  obtain ⟨c, hc, rfl⟩ := h
  refine ⟨c, hc, ?_⟩
  split
  · rename_i haddr
    unfold Receiver.receive
    split
    · rename_i hlive
      exact ⟨rfl, .inr ⟨haddr, hlive, rfl⟩⟩
    · rename_i hlive
      exact ⟨rfl, .inl ⟨rfl, fun hl => absurd hl hlive⟩⟩
  · rename_i haddr
    exact ⟨rfl, .inl ⟨rfl, fun _ => haddr⟩⟩

theorem start_current (B : Board σ E O V) (v : σ) : Current B (start v) where
  registered := by
    rintro i c ⟨⟩
  known := by
    rintro r (⟨dest, hsent⟩ | ⟨c, hc, _⟩)
    · cases hsent
    · cases hc
  told := by
    rintro i c ⟨⟩

theorem Current.edit (h : Current B s) (e : E) : Current B (step B s (.edit e)) := by
  have hq := B.quiet e s.value
  unfold step
  cases he : B.edit e s.value with
  | mk t announced =>
    rw [he] at hq
    cases announced with
    | true =>
      simp only [he]
      refine ⟨h.registered, ?_, ?_⟩
      · intro r hr
        have hold : s.Held r := by
          rcases hr with ⟨dest, hsent⟩ | hc
          · rcases List.mem_append.mp hsent with hsent | hsent
            · exact .inl ⟨dest, hsent⟩
            · cases List.mem_singleton.mp hsent
          · exact .inr hc
        have hle := (h.known r hold).1
        exact ⟨Nat.le_succ_of_le hle, fun heq => absurd heq (by dsimp only; omega)⟩
      · intro i c hc hl
        refine .inr ⟨none, .inr ⟨rfl, h.registered i c hc hl⟩, .inl ?_⟩
        exact List.mem_append_right _ (List.mem_singleton_self _)
    | false =>
      simp only [he]
      refine ⟨h.registered, ?_, h.told⟩
      intro r hr
      have hknown := h.known r hr
      refine ⟨hknown.1, fun heq => ?_⟩
      obtain ⟨o, ho⟩ := hknown.2 heq
      exact ⟨o, ho.trans (hq o rfl).symm⟩

theorem Current.subscribe (h : Current B s) : Current B (step B s .subscribe) where
  registered := by
    intro i c hc hl
    unfold step at hc ⊢
    dsimp only at hc ⊢
    rw [List.mem_append, List.mem_singleton]
    rw [List.getElem?_append] at hc
    split at hc
    · exact .inl (h.registered i c hc hl)
    · rename_i hge
      have hi := (List.getElem?_eq_some_iff.mp hc).1
      rw [List.length_singleton] at hi
      exact .inr (by omega)
  known := by
    rintro r (⟨dest, hsent⟩ | ⟨c, hc, hr⟩)
    · rcases List.mem_append.mp hsent with hsent | hsent
      · exact h.known r (.inl ⟨dest, hsent⟩)
      · cases List.mem_singleton.mp hsent
    · rcases List.mem_append.mp hc with hc | hc
      · exact h.known r (.inr ⟨c, hc, hr⟩)
      · rw [List.mem_singleton.mp hc] at hr
        cases hr
  told := by
    intro i c hc hl
    unfold step at hc
    dsimp only at hc
    rw [List.getElem?_append] at hc
    split at hc
    · rcases h.told i c hc hl with hr | ⟨dest, haddr, hpending⟩
      · exact .inl hr
      · refine .inr ⟨dest, haddr.imp_right (fun hn => ⟨hn.1, List.mem_append_left _ hn.2⟩), ?_⟩
        rcases hpending with hlist | ⟨r, hr, hsend⟩
        · exact .inl (List.mem_append_left _ hlist)
        · exact .inr ⟨r, hr, List.mem_append_left _ hsend⟩
    · rename_i hge
      have hi := (List.getElem?_eq_some_iff.mp hc).1
      rw [List.length_singleton] at hi
      have heq : i = s.receivers.length := by omega
      subst heq
      exact .inr ⟨some _, .inl rfl, .inl (List.mem_append_right _ (List.mem_singleton_self _))⟩

/-- A task that makes its reading. -/
theorem Current.list (h : Current B s) {i : Nat} {dest : Option Nat}
    (ht : s.tasks[i]? = some (.list dest)) (o : O) :
    Current B { s with tasks := s.tasks.set i (.send dest ⟨B.read o s.value, s.edits⟩) } := by
  have hlt := (List.getElem?_eq_some_iff.mp ht).1
  have hnew : Stage.send dest ⟨B.read o s.value, s.edits⟩ ∈
      s.tasks.set i (.send dest ⟨B.read o s.value, s.edits⟩) :=
    List.mem_iff_getElem?.mpr ⟨i, List.getElem?_set_self hlt⟩
  refine ⟨h.registered, ?_, ?_⟩
  · rintro r (⟨dest', hsent⟩ | hc)
    · rcases List.mem_or_eq_of_mem_set hsent with hsent | heq
      · exact h.known r (.inl ⟨dest', hsent⟩)
      · cases heq
        exact ⟨Nat.le_refl _, fun _ => ⟨o, rfl⟩⟩
    · exact h.known r (.inr hc)
  · intro j c hc hl
    rcases h.told j c hc hl with hr | ⟨dest', haddr, hpending⟩
    · exact .inl hr
    · refine .inr ⟨dest', haddr, ?_⟩
      rcases hpending with hlist | ⟨r, hr, hsend⟩
      · by_cases hsent : dest' = dest
        · subst hsent
          exact .inr ⟨_, rfl, hnew⟩
        · exact .inl (mem_set_of_ne ht hlist (by simpa using hsent))
      · exact .inr ⟨r, hr, mem_set_of_ne ht hsend (by simp)⟩

/-- A task that sends its reading. -/
theorem Current.send (h : Current B s) {i : Nat} {dest : Option Nat} {r : Reading V}
    (ht : s.tasks[i]? = some (.send dest r)) :
    Current B { s.deliver dest r with tasks := s.tasks.set i .done } where
  registered := by
    intro j c' hc' hl
    obtain ⟨c, hc, hlive, _⟩ := deliver_receiver hc'
    rw [hlive] at hl
    have hmem := h.registered j c hc hl
    cases dest with
    | none =>
      refine List.mem_filter.mpr ⟨hmem, ?_⟩
      rw [alive, hc]
      exact hl
    | some k => exact hmem
  known := by
    have hr : s.Held r := .inl ⟨dest, List.mem_of_getElem? ht⟩
    rintro q (⟨dest', hsent⟩ | ⟨c', hc', hq⟩)
    · rcases List.mem_or_eq_of_mem_set hsent with hsent | heq
      · exact h.known q (.inl ⟨dest', hsent⟩)
      · cases heq
    · obtain ⟨j, hj⟩ := List.mem_iff_getElem?.mp hc'
      obtain ⟨c, hc, _, ⟨rfl, _⟩ | ⟨_, _, hreceived⟩⟩ := deliver_receiver hj
      · exact h.known q (.inr ⟨_, List.mem_of_getElem? hc, hq⟩)
      · rw [hreceived, List.mem_append, List.mem_singleton] at hq
        rcases hq with hq | rfl
        · exact h.known q (.inr ⟨c, List.mem_of_getElem? hc, hq⟩)
        · exact h.known q hr
  told := by
    intro j c' hc' hl
    obtain ⟨c, hc, hlive, hcase⟩ := deliver_receiver hc'
    rw [hlive] at hl
    rcases h.told j c hc hl with ⟨q, hq, he⟩ | ⟨dest', haddr, hpending⟩
    · left
      rcases hcase with ⟨rfl, _⟩ | ⟨_, _, hreceived⟩
      · exact ⟨q, hq, he⟩
      · exact ⟨q, hreceived ▸ List.mem_append_left _ hq, he⟩
    · have haddr' : (s.deliver dest r).Addressed dest' j := by
        refine haddr.imp_right (fun hn => ⟨hn.1, ?_⟩)
        cases dest with
        | none =>
          refine List.mem_filter.mpr ⟨hn.2, ?_⟩
          rw [alive, hc]
          exact hl
        | some k => exact hn.2
      rcases hpending with hlist | ⟨q, he, hsend⟩
      · exact .inr ⟨dest', haddr', .inl (mem_set_of_ne ht hlist (by simp))⟩
      · by_cases hsame : dest' = dest ∧ q = r
        · -- this is the reading the channel waited for
          obtain ⟨rfl, rfl⟩ := hsame
          rcases hcase with ⟨_, hno⟩ | ⟨_, _, hreceived⟩
          · exact absurd haddr (hno hl)
          · exact .inl ⟨q, hreceived ▸ List.mem_append_right _ (List.mem_singleton_self q), he⟩
        · refine .inr ⟨dest', haddr', .inr ⟨q, he, mem_set_of_ne ht hsend ?_⟩⟩
          rintro ⟨⟩
          exact hsame ⟨rfl, rfl⟩

theorem Current.drop (h : Current B s) (i : Nat) :
    Current B { s with receivers := s.receivers.modify i (fun c => { c with live := false }) } := by
  have hreceiver : ∀ (j : Nat) c', (s.receivers.modify i (fun c => { c with live := false }))[j]? =
      some c' → ∃ c, s.receivers[j]? = some c ∧ c'.received = c.received ∧
        (c'.live = true → c' = c) := by
    intro j c' hc'
    rw [List.getElem?_modify, Option.map_eq_map, Option.map_eq_some_iff] at hc'
    obtain ⟨c, hc, rfl⟩ := hc'
    refine ⟨c, hc, ?_⟩
    split
    · exact ⟨rfl, fun hl => (by cases hl)⟩
    · exact ⟨rfl, fun _ => rfl⟩
  refine ⟨?_, ?_, ?_⟩
  · intro j c' hc' hl
    obtain ⟨c, hc, _, heq⟩ := hreceiver j c' hc'
    obtain rfl := heq hl
    exact h.registered j c' hc hl
  · rintro r (hsent | ⟨c', hc', hr⟩)
    · exact h.known r (.inl hsent)
    · obtain ⟨j, hj⟩ := List.mem_iff_getElem?.mp hc'
      obtain ⟨c, hc, hreceived, _⟩ := hreceiver j c' hj
      exact h.known r (.inr ⟨c, List.mem_of_getElem? hc, hreceived ▸ hr⟩)
  · intro j c' hc' hl
    obtain ⟨c, hc, _, heq⟩ := hreceiver j c' hc'
    obtain rfl := heq hl
    exact h.told j c' hc hl

theorem Current.step (h : Current B s) (a : RoomAct E O) : Current B (s.step B a) := by
  cases a with
  | edit e => exact h.edit e
  | subscribe => exact h.subscribe
  | drop i => exact h.drop i
  | proceed i o =>
    unfold Room.step
    dsimp only
    split
    · rename_i ht
      exact h.list ht o
    · rename_i ht
      exact h.send ht
    · exact h

theorem Ordered.step (h : s.Ordered) {a : RoomAct E O} (ha : s.InOrder a) :
    (s.step B a).Ordered := by
  cases a with
  | edit e =>
    unfold Room.step
    dsimp only
    split <;> exact h
  | subscribe =>
    intro c hc
    rcases List.mem_append.mp hc with hc | hc
    · exact h c hc
    · rw [List.mem_singleton.mp hc]
      exact List.Pairwise.nil
  | drop i =>
    intro c' hc'
    obtain ⟨j, hj⟩ := List.mem_iff_getElem?.mp hc'
    unfold Room.step at hj
    rw [List.getElem?_modify, Option.map_eq_map, Option.map_eq_some_iff] at hj
    obtain ⟨c, hc, rfl⟩ := hj
    have hold := h c (List.mem_of_getElem? hc)
    split <;> exact hold
  | proceed i o =>
    unfold Room.step
    dsimp only
    split
    · exact h
    · rename_i dest r ht
      simp only [InOrder, ht] at ha
      intro c' hc'
      obtain ⟨j, hj⟩ := List.mem_iff_getElem?.mp hc'
      obtain ⟨c, hc, _, hcase⟩ := deliver_receiver hj
      have hold := h c (List.mem_of_getElem? hc)
      rcases hcase with ⟨rfl, _⟩ | ⟨haddr, hlive, hreceived⟩
      · exact hold
      · rw [hreceived, List.pairwise_append]
        refine ⟨hold, List.pairwise_singleton _ _, ?_⟩
        intro q hq r' hr'
        rw [List.mem_singleton.mp hr']
        obtain ⟨hlt, rfl⟩ := List.getElem?_eq_some_iff.mp hc
        exact ha j hlt haddr hlive q hq
    · exact h

end Steps

section Runs

variable {B : Board σ E O V} {s : Room σ V}

theorem Current.run (h : Current B s) (acts : List (RoomAct E O)) : Current B (s.run B acts) := by
  induction acts generalizing s with
  | nil => exact h
  | cons a acts ih => exact ih (h.step a)

theorem Ordered.run (h : s.Ordered) {acts : List (RoomAct E O)} (ha : InOrderAlong B s acts) :
    (s.run B acts).Ordered := by
  induction acts generalizing s with
  | nil => exact h
  | cons a acts ih => exact ih (h.step ha.1) ha.2

/-- With every caller done, a subscriber that was sent its readings in order was last sent the
value as it is. -/
theorem last_current (h : Current B s) (ho : s.Ordered) (hq : s.Quiescent) {i : Nat}
    {c : Receiver V} (hc : s.receivers[i]? = some c) (hl : c.live = true) :
    ∃ o, s.last i = some (B.read o s.value) := by
  have hnone : ∀ stage ∈ s.tasks, stage ≠ .done → False := fun stage hs hne => hne (hq stage hs)
  rcases h.told i c hc hl with ⟨r, hr, he⟩ | ⟨dest, _, hlist | ⟨r, _, hsend⟩⟩
  · rcases List.eq_nil_or_concat' c.received with hnil | ⟨init, final, hfinal⟩
    · rw [hnil] at hr
      cases hr
    · have hmem : final ∈ c.received := by
        rw [hfinal]
        exact List.mem_append_right _ (List.mem_singleton_self _)
      have hknown := h.known final (.inr ⟨c, List.mem_of_getElem? hc, hmem⟩)
      have hsorted := ho c (List.mem_of_getElem? hc)
      rw [hfinal] at hr hsorted
      have hlate : r.edits ≤ final.edits := by
        rcases List.mem_append.mp hr with hr | hr
        · exact (List.pairwise_append.mp hsorted).2.2 r hr final (List.mem_singleton_self _)
        · obtain rfl := List.mem_singleton.mp hr
          exact Nat.le_refl _
      obtain ⟨o, hvalue⟩ := hknown.2 (Nat.le_antisymm hknown.1 (he ▸ hlate))
      refine ⟨o, ?_⟩
      rw [last, hc, Option.bind_some, hfinal, List.getLast?_concat, Option.map_some, hvalue]
  · exact (hnone _ hlist (by simp)).elim
  · exact (hnone _ hsend (by simp)).elim

end Runs

end Room

end Seance.Lib
