import Seance.Ssh.Session

namespace Seance.Ssh
open Lib Terminal

/-- The exit text among the messages read so far; a later one replaces an earlier one. -/
def last_exit (read : List ChannelMsg) : Option String :=
  (read.filterMap ChannelMsg.exit_text).getLast?

def ends_session : ChannelMsg → Bool
  | .eof | .close => true
  | _ => false

theorem last_exit_append (read more : List ChannelMsg) :
    last_exit (read ++ more) = (last_exit more).or (last_exit read) := by
  unfold last_exit
  rw [List.filterMap_append, List.getLast?_append]

theorem last_exit_none {read : List ChannelMsg} (h : ∀ m ∈ read, m.exit_text = none) :
    last_exit read = none := by
  unfold last_exit
  rw [List.filterMap_eq_nil_iff.mpr h]
  rfl

theorem last_exit_cons {m : ChannelMsg} {text : String} {read : List ChannelMsg}
    (hm : m.exit_text = some text) (h : ∀ m ∈ read, m.exit_text = none) :
    last_exit (m :: read) = some text := by
  unfold last_exit
  rw [List.filterMap_cons, hm, List.filterMap_eq_nil_iff.mpr h]
  rfl

theorem exit_text_ne {m : ChannelMsg} {text : String} (hm : m.exit_text = some text) :
    text ≠ "startup error" ∧ text ≠ "remote session closed" := by
  have hhead : text.toList.take 8 = "remote e".toList := by
    cases m with
    | exitStatus code =>
      cases hm
      rw [String.toList_append]
      rfl
    | exitSignal signal_name =>
      cases hm
      rw [String.toList_append]
      rfl
    | _ => cases hm
  constructor
  all_goals
    intro h
    rw [h] at hhead
    exact absurd hhead (by decide)

/-- Output: it neither ends the session nor says how the remote ended. -/
def is_output : ChannelMsg → Bool
  | .data _ | .extendedData _ _ => true
  | _ => false

theorem output_plain {m : ChannelMsg} (h : is_output m = true) :
    m.exit_text = none ∧ ends_session m = false := by
  cases m <;> first | exact ⟨rfl, rfl⟩ | cases h

section Messages

variable {exit : ChannelMsg} {text : String} {pre mid rest tail read unread : List ChannelMsg}

/-- How a read prefix lies about the exit message: it stops short of it, or goes past it. -/
theorem read_cases (hread : pre ++ exit :: tail = read ++ unread) :
    (read <+: pre ∧ tail.length < unread.length) ∨
      ∃ more, read = pre ++ exit :: more ∧ tail = more ++ unread := by
  rcases List.append_eq_append_iff.mp hread with ⟨more, hr, ht⟩ | ⟨more, hp, hu⟩
  · cases more with
    | nil =>
      left
      rw [List.append_nil] at hr
      rw [List.nil_append] at ht
      rw [hr, ← ht]
      exact ⟨List.prefix_refl _, Nat.lt_succ_self _⟩
    | cons m more =>
      rw [List.cons_append, List.cons.injEq] at ht
      exact Or.inr ⟨more, by rw [hr, ht.1], ht.2⟩
  · left
    rw [hp, hu]
    refine ⟨List.prefix_append _ _, ?_⟩
    rw [List.length_append, List.length_cons]
    omega

/-- Up to the first `Close` there is no other exit message. -/
theorem no_exit_before_close (hmid : ∀ m ∈ mid, m.exit_text = none)
    (hread : mid ++ .close :: rest = read ++ unread)
    (hends : ∀ m ∈ read.dropLast, ends_session m = false) : ∀ m ∈ read, m.exit_text = none := by
  induction read generalizing mid with
  | nil => simp
  | cons x read ih =>
    cases mid with
    | nil =>
      rw [List.nil_append, List.cons_append, List.cons.injEq] at hread
      cases read with
      | nil =>
        intro m hm
        rw [List.mem_singleton.mp hm, ← hread.1]
        rfl
      | cons y read =>
        have hx := hends x (by simp)
        rw [← hread.1] at hx
        cases hx
    | cons z mid =>
      rw [List.cons_append, List.cons_append, List.cons.injEq] at hread
      intro m hm
      rcases List.mem_cons.mp hm with rfl | hm
      · rw [← hread.1]
        exact hmid z List.mem_cons_self
      · refine ih (fun m hm => hmid m (List.mem_cons_of_mem _ hm)) hread.2 (fun m hm => ?_) m hm
        cases read with
        | nil => simp at hm
        | cons y read => exact hends m (by simp [List.dropLast, hm])

/-- What the messages read so far say about the exit, as long as only the last one of them may
have closed the channel. -/
theorem last_exit_of_read (hexit : exit.exit_text = some text)
    (hpre : ∀ m ∈ pre, m.exit_text = none) (hmid : ∀ m ∈ mid, m.exit_text = none)
    (hread : pre ++ exit :: (mid ++ .close :: rest) = read ++ unread)
    (hends : ∀ m ∈ read.dropLast, ends_session m = false) :
    last_exit read = some text ∧ unread.length ≤ (mid ++ .close :: rest).length ∨
      last_exit read = none ∧ (mid ++ .close :: rest).length < unread.length := by
  rcases read_cases hread with ⟨hstarts, hlt⟩ | ⟨more, rfl, htail⟩
  · exact Or.inr ⟨last_exit_none fun m hm => hpre m (hstarts.subset hm), hlt⟩
  · left
    have hmore : ∀ m ∈ more, m.exit_text = none := by
      refine no_exit_before_close hmid htail fun m hm => hends m ?_
      rw [List.dropLast_append_of_ne_nil (by simp)]
      cases more with
      | nil => simp at hm
      | cons y more => simp [List.dropLast, hm]
    refine ⟨?_, by rw [htail, List.length_append]; omega⟩
    rw [last_exit_append, last_exit_cons hexit hmore]
    rfl

/-- Once the channel is closed, the exit message has been read exactly when no `Eof` preceded it. -/
theorem last_exit_of_closed (hexit : exit.exit_text = some text)
    (hpre : ∀ m ∈ pre, m.exit_text = none ∧ m ≠ .close) (hmid : ∀ m ∈ mid, m.exit_text = none)
    (hread : pre ++ exit :: (mid ++ .close :: rest) = read ++ unread)
    (hends : ∀ m ∈ read.dropLast, ends_session m = false)
    (hclosed : unread = [] ∨ ∃ m ∈ read, ends_session m = true) :
    last_exit read = some text ↔ .eof ∉ pre := by
  have hany : ∃ m ∈ read, ends_session m = true := by
    rcases hclosed with rfl | hany
    · rw [List.append_nil] at hread
      exact ⟨.close, by simp [← hread], rfl⟩
    · exact hany
  rcases read_cases hread with ⟨hstarts, hlt⟩ | ⟨more, hmore, htail⟩
  · have hnone := last_exit_none fun m hm => (hpre m (hstarts.subset hm)).1
    rw [hnone]
    obtain ⟨m, hm, hend⟩ := hany
    refine ⟨fun h => (by cases h), fun h => absurd (hstarts.subset hm) ?_⟩
    cases m with
    | eof => exact h
    | close => exact fun hc => (hpre _ hc).2 rfl
    | _ => cases hend
  · rcases last_exit_of_read hexit (fun m hm => (hpre m hm).1) hmid hread hends with h | h
    · refine ⟨fun _ heof => ?_, fun _ => h.1⟩
      have hdrop : .eof ∈ read.dropLast := by
        rw [hmore, List.dropLast_append_of_ne_nil (by simp)]
        exact List.mem_append_left _ heof
      cases hends _ hdrop
    · rw [htail, List.length_append] at h
      omega

end Messages

section Worker

variable {T R : Type} {G : Ghostty T R} {E : Encoders T} {w : Worker T R}

/-- A step that takes the messages `more` off the channel. -/
structure Took (w w' : Worker T R) (more : List ChannelMsg) : Prop where
  unread : w.unread = more ++ w'.unread
  exit_status : w'.exit_status = (last_exit more).or w.exit_status
  running : w'.running = w.running

/-- What a read takes: output, then the control message it hands on, unless the channel is at its
end. -/
structure TookOutput (w : Worker T R) (r : Worker T R × Option ChannelMsg × Bool)
    (output : List ChannelMsg) : Prop where
  plain : ∀ m ∈ output, is_output m = true
  unread : w.unread = output ++ (r.2.1.toList ++ r.1.unread)
  exit_status : r.1.exit_status = w.exit_status
  running : r.1.running = w.running
  ended : r.2.2 = true → r.2.1 = none ∧ r.1.unread = []

theorem TookOutput.none (w : Worker T R) : TookOutput w (w, none, false) [] :=
  ⟨by simp, rfl, rfl, rfl, fun h => by cases h⟩

theorem TookOutput.ended_channel (hu : w.unread = []) : TookOutput w (w, .none, true) [] :=
  ⟨by simp, by simp [hu], rfl, rfl, fun _ => ⟨rfl, hu⟩⟩

theorem TookOutput.control {m : ChannelMsg} {rest : List ChannelMsg} (hu : w.unread = m :: rest) :
    TookOutput w ({ w with unread := rest }, some m, false) [] :=
  ⟨by simp, by simp [hu], rfl, rfl, fun h => by cases h⟩

/-- One more message of output in front. -/
theorem TookOutput.cons {w' : Worker T R} {r : Worker T R × Option ChannelMsg × Bool}
    {m : ChannelMsg} {output : List ChannelMsg} (h : TookOutput w' r output)
    (hm : is_output m = true) (hu : w.unread = m :: w'.unread)
    (he : w'.exit_status = w.exit_status) (hr : w'.running = w.running) :
    TookOutput w r (m :: output) := by
  refine ⟨List.forall_mem_cons.mpr ⟨hm, h.plain⟩, ?_, h.exit_status.trans he, h.running.trans hr,
    h.ended⟩
  rw [hu, h.unread, List.cons_append]

theorem drain_data_burst_took (budget : Nat) (w : Worker T R) :
    ∃ output, TookOutput w (w.drain_data_burst G budget) output := by
  induction budget generalizing w with
  | zero => exact ⟨[], .none w⟩
  | succ budget ih =>
    unfold Worker.drain_data_burst
    split
    · rename_i hu
      exact ⟨[], .ended_channel hu⟩
    · rename_i data rest hu
      obtain ⟨output, h⟩ := ih ({ w with unread := rest }.write_output G data)
      exact ⟨_, h.cons rfl hu rfl rfl⟩
    · rename_i data ext rest hu
      obtain ⟨output, h⟩ := ih ({ w with unread := rest }.write_output G data)
      exact ⟨_, h.cons rfl hu rfl rfl⟩
    · rename_i other rest _ _ hu
      exact ⟨[], .control hu⟩

theorem read_output_took (budget : Nat) (data : List UInt8) (w : Worker T R) :
    ∃ output, TookOutput w (w.read_output G budget data) output := by
  obtain ⟨output, h⟩ := drain_data_burst_took (G := G) budget (w.write_output G data)
  exact ⟨output, h.plain, h.unread, h.exit_status, h.running, h.ended⟩

theorem read_message_took (budget : Nat) (w : Worker T R) :
    ∃ output, TookOutput w (w.read_message G budget) output := by
  unfold Worker.read_message
  split
  · rename_i hu
    exact ⟨[], .ended_channel hu⟩
  · rename_i data rest hu
    obtain ⟨output, h⟩ := read_output_took (G := G) budget data { w with unread := rest }
    exact ⟨_, h.cons rfl hu rfl rfl⟩
  · rename_i data ext rest hu
    obtain ⟨output, h⟩ := read_output_took (G := G) budget data { w with unread := rest }
    exact ⟨_, h.cons rfl hu rfl rfl⟩
  · rename_i other rest _ _ hu
    exact ⟨[], .control hu⟩

theorem dispatch_took (control : Option ChannelMsg) (channel_closed : Bool) (w : Worker T R) :
    let r := w.dispatch G control channel_closed
    r.1.unread = w.unread ∧ r.1.exit_status = (last_exit control.toList).or w.exit_status ∧
      r.1.running = w.running ∧
      (r.2 = true ↔ channel_closed = true ∨ ∃ m ∈ control, ends_session m = true) := by
  cases control with
  | none => exact ⟨rfl, rfl, rfl, by simp [Worker.dispatch]⟩
  | some m =>
    cases m <;> refine ⟨rfl, rfl, rfl, ?_⟩ <;>
      simp [Worker.dispatch, ends_session, ChannelMsg.exit_text]

/-- A message handled takes output and at most one control message off the channel, and only that
last one can close the session; or it finds the channel at its end. -/
structure Handled (w : Worker T R) (r : Worker T R × Bool) (more : List ChannelMsg) : Prop extends
    Took w r.1 more where
  inner : ∀ m ∈ more.dropLast, ends_session m = false
  goes_on : r.2 = false → ∀ m ∈ more, ends_session m = false
  closes : r.2 = true → r.1.unread = [] ∨ ∃ m ∈ more, ends_session m = true

theorem before_close_handled (budget : Nat) (w : Worker T R) :
    ∃ more, Handled w (w.before_close G budget) more := by
  obtain ⟨output, h⟩ := read_message_took (G := G) budget w
  obtain ⟨hunread, hstatus, hrunning, hclosed⟩ := dispatch_took (G := G)
    (w.read_message G budget).2.1 (w.read_message G budget).2.2 (w.read_message G budget).1
  have hplain (m : ChannelMsg) (hm : m ∈ output) := output_plain (h.plain m hm)
  refine ⟨output ++ (w.read_message G budget).2.1.toList, ⟨?_, ?_, hrunning.trans h.running⟩, ?_, ?_,
    ?_⟩
  · rw [h.unread, List.append_assoc]
    exact congrArg (fun rest => output ++ (_ ++ rest)) hunread.symm
  · refine hstatus.trans ?_
    rw [h.exit_status, last_exit_append, last_exit_none fun m hm => (hplain m hm).1]
    cases last_exit (w.read_message G budget).2.1.toList <;> rfl
  · intro m hm
    cases hc : (w.read_message G budget).2.1 with
    | none =>
      rw [hc, Option.toList_none, List.append_nil] at hm
      exact (hplain m (List.mem_of_mem_dropLast hm)).2
    | some control =>
      rw [hc, Option.toList_some, List.dropLast_concat] at hm
      exact (hplain m hm).2
  · intro hf m hm
    rcases List.mem_append.mp hm with hm | hm
    · exact (hplain m hm).2
    · cases he : ends_session m with
      | false => rfl
      | true =>
        have ht := hclosed.mpr (Or.inr ⟨m, Option.mem_toList.mp hm, he⟩)
        exact absurd (hf.symm.trans ht) (by decide)
  · intro ht
    rcases hclosed.mp ht with hc | ⟨m, hm, he⟩
    · exact Or.inl (hunread.trans (h.ended hc).2)
    · exact Or.inr ⟨m, List.mem_append_right _ (Option.mem_toList.mpr hm), he⟩

/-- A command reads nothing off the channel. -/
theorem apply_session_command_keeps (command : SessionCommand) (written : Except Error Unit)
    (w : Worker T R) :
    (w.apply_session_command G E command written).unread = w.unread ∧
      (w.apply_session_command G E command written).exit_status = w.exit_status := by
  have hwrite (w : Worker T R) : (w.write_input written).unread = w.unread ∧
      (w.write_input written).exit_status = w.exit_status := by
    unfold Worker.write_input
    split <;> exact ⟨rfl, rfl⟩
  have hencoded (bytes : Except Error (List UInt8)) (w : Worker T R) :
      (w.write_encoded written bytes).unread = w.unread ∧
        (w.write_encoded written bytes).exit_status = w.exit_status := by
    unfold Worker.write_encoded
    split
    · exact ⟨rfl, rfl⟩
    · exact hwrite w
    · exact ⟨rfl, rfl⟩
  cases command with
  | input bytes => exact hwrite (w.execute _)
  | text event => exact hencoded _ (w.execute _)
  | key event => exact hencoded _ (w.execute _)
  | mouse event => exact hencoded _ (w.execute _)
  | paste paste => exact hencoded _ (w.execute _)
  | _ => exact ⟨rfl, rfl⟩

/-- A command stops the worker by failing, or as the last scroll batch of a dropped handle. -/
theorem apply_session_command_stops {command : SessionCommand} {written : Except Error Unit}
    (hrunning : w.running = true)
    (h : (w.apply_session_command G E command written).running = false) :
    (∃ error, w.apply_session_command G E command written = (w.execute [command]).fail error) ∧
        is_scroll_session_command command = false ∨
      is_scroll_session_command command = true := by
  have hwrite (v : Worker T R) (hv : v.running = true)
      (h : (v.write_input written).running = false) :
      ∃ error, v.write_input written = v.fail error := by
    unfold Worker.write_input at h ⊢
    split at h
    · exact absurd (hv.symm.trans h) (by decide)
    · exact ⟨_, rfl⟩
  have hencoded (bytes : Except Error (List UInt8))
      (h : ((w.execute [command]).write_encoded written bytes).running = false) :
      ∃ error, (w.execute [command]).write_encoded written bytes =
        (w.execute [command]).fail error := by
    unfold Worker.write_encoded at h ⊢
    split at h
    · exact absurd (hrunning.symm.trans h) (by decide)
    · exact hwrite _ hrunning h
    · exact ⟨_, rfl⟩
  cases command with
  | input bytes => exact Or.inl ⟨hwrite _ hrunning h, rfl⟩
  | text event => exact Or.inl ⟨hencoded _ h, rfl⟩
  | key event => exact Or.inl ⟨hencoded _ h, rfl⟩
  | mouse event => exact Or.inl ⟨hencoded _ h, rfl⟩
  | paste paste => exact Or.inl ⟨hencoded _ h, rfl⟩
  | scrollViewport command => exact Or.inr rfl
  | scrollToBottom => exact Or.inr rfl
  | _ => exact absurd (hrunning.symm.trans h) (by decide)

end Worker

end Seance.Ssh
