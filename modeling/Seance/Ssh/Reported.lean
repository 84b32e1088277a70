import Seance.Ssh.ExitStatus
import Seance.Terminal.Scroll

namespace Seance.Ssh
open Lib Terminal

section Runs

variable {T R : Type} {G : Ghostty T R} {E : Encoders T}

/-- A running worker knows the exit among the messages it has read, none of which closed the
channel. -/
def Reading (messages : List ChannelMsg) (w : Worker T R) : Prop :=
  ∃ read, messages = read ++ w.unread ∧ w.exit_status = last_exit read ∧
    ∀ m ∈ read, ends_session m = false

variable {messages : List ChannelMsg} {w : Worker T R}

theorem Reading.of_eq {w' : Worker T R} (h : Reading messages w) (hu : w'.unread = w.unread)
    (he : w'.exit_status = w.exit_status) : Reading messages w' := by
  obtain ⟨read, hsplit, hexit, hends⟩ := h
  exact ⟨read, by rw [hu, hsplit], by rw [he, hexit], hends⟩

theorem turn_stopped (h : w.running = false) (t : Turn) : w.turn G E t = w := by
  unfold Worker.turn
  rw [h]

theorem turn_message (hrunning : w.running = true) (hpending : w.pending_command = none)
    (budget : Nat) : w.turn G E (.message budget) =
      if (w.before_close G budget).2 then (w.before_close G budget).1.close G
      else (w.before_close G budget).1 := by
  unfold Worker.turn
  rw [hrunning]
  simp only [hpending]

theorem turn_command (hrunning : w.running = true) (written : Except Error Unit) :
    w.turn G E (.command written) = match w.take_command with
      | some (command, w') => w'.apply_session_command G E command written
      | none => w := by
  unfold Worker.turn
  cases w.take_command with
  | none => simp only [hrunning]
  | some taken => simp only [hrunning]

theorem turn_arrive (hrunning : w.running = true) (command : SessionCommand) :
    w.turn G E (.arrive command) = { w with command_rx := w.command_rx ++ [command] } := by
  unfold Worker.turn
  simp only [hrunning]

theorem turn_hangUp (hrunning : w.running = true) :
    w.turn G E .hangUp = { w with closed := true } := by
  unfold Worker.turn
  simp only [hrunning]

/-- A message waits for the deferred command. -/
theorem turn_waits (hrunning : w.running = true) {command : SessionCommand}
    (hpending : w.pending_command = some command) (budget : Nat) :
    w.turn G E (.message budget) = w := by
  unfold Worker.turn
  simp only [hrunning, hpending]

theorem take_command_keeps {w' : Worker T R} {command : SessionCommand}
    (h : w.take_command = some (command, w')) :
    w'.unread = w.unread ∧ w'.exit_status = w.exit_status ∧ w'.running = w.running := by
  unfold Worker.take_command at h
  split at h
  · cases h
    exact ⟨rfl, rfl, rfl⟩
  · cases h
    exact ⟨rfl, rfl, rfl⟩
  · cases h

theorem Reading.turn (h : Reading messages w) (t : Turn)
    (hrunning : (w.turn G E t).running = true) : Reading messages (w.turn G E t) := by
  cases hw : w.running with
  | false => rwa [turn_stopped hw]
  | true =>
    cases t with
    | arrive command =>
      rw [turn_arrive hw]
      exact h.of_eq rfl rfl
    | hangUp =>
      rw [turn_hangUp hw]
      exact h.of_eq rfl rfl
    | command written =>
      rw [turn_command hw]
      split
      · rename_i command w' htake
        have hkeep := take_command_keeps htake
        have happly := apply_session_command_keeps (G := G) (E := E) command written w'
        exact h.of_eq (happly.1.trans hkeep.1) (happly.2.trans hkeep.2.1)
      · exact h
    | message budget =>
      cases hpending : w.pending_command with
      | some command => rwa [turn_waits hw hpending]
      | none =>
        rw [turn_message hw hpending] at hrunning ⊢
        cases hclosed : (w.before_close G budget).2 with
        | true =>
          rw [hclosed, if_pos rfl] at hrunning
          cases hrunning
        | false =>
          rw [if_neg (by decide)]
          obtain ⟨read, hsplit, hexit, hends⟩ := h
          obtain ⟨more, hmore⟩ := before_close_handled (G := G) budget w
          refine ⟨read ++ more, ?_, ?_, ?_⟩
          · rw [hsplit, hmore.unread, List.append_assoc]
          · rw [hmore.exit_status, hexit, last_exit_append]
          · intro m hm
            rcases List.mem_append.mp hm with hm | hm
            · exact hends m hm
            · exact hmore.goes_on hclosed m hm

theorem run_concat (turns : List Turn) (t : Turn) :
    w.run G E (turns ++ [t]) = (w.run G E turns).turn G E t := by
  unfold Worker.run
  rw [List.foldl_append]
  rfl

theorem Reading.run (h : Reading messages w) (turns : List Turn)
    (hrunning : (w.run G E turns).running = true) : Reading messages (w.run G E turns) := by
  induction turns using List.reverseRecOn with
  | nil => exact h
  | append_singleton turns t ih =>
    rw [run_concat] at hrunning ⊢
    cases hbefore : (w.run G E turns).running with
    | true => exact (ih hbefore).turn t hrunning
    | false =>
      rw [turn_stopped hbefore] at hrunning
      exact absurd (hbefore.symm.trans hrunning) (by decide)

theorem start_reading {state : SharedSessionState} {geometry : TerminalGeometry}
    (h : Worker.start G state geometry messages = .ok w) : Reading messages w := by
  obtain ⟨emulator, _, h⟩ := except_bind_ok.mp h
  cases h
  exact ⟨[], rfl, rfl, by simp⟩

/-- The turn that ends the session publishes the exit: on a message, if no `Eof` stands before the
exit message; on a command, if the exit message has been read and the command is the last scroll
batch of a dropped handle, not one that fails. In both cases the last refresh has to be answered. -/
inductive Delivers (G : Ghostty T R) (pre : List ChannelMsg) (after_exit : Nat)
    (w : Worker T R) : Turn → Prop
  | message {budget : Nat} (no_eof : .eof ∉ pre)
      (answers : Answers G (some ((w.before_close G budget).1.exit_status.getD
        "remote session closed")) true (w.before_close G budget).1.emulator) :
      Delivers G pre after_exit w (.message budget)
  | hung_up {written : Except Error Unit} {command : SessionCommand} {w' : Worker T R}
      (take : w.take_command = some (command, w'))
      (scroll : is_scroll_session_command command = true)
      (read : w.unread.length ≤ after_exit)
      (answers : Answers G w.exit_status false (w'.scroll_batch G command).emulator) :
      Delivers G pre after_exit w (.command written)

theorem apply_scroll {command : SessionCommand} (h : is_scroll_session_command command = true)
    (written : Except Error Unit) (w : Worker T R) :
    (w.apply_session_command G E command written).state =
      ((w.scroll_batch G command).refresh G w.exit_status false).state := by
  cases command with
  | scrollViewport command => rfl
  | scrollToBottom => rfl
  | _ => cases h

/-- Every run of a session whose remote sends an exit message and later `Close`, in any
interleaving with commands: when the session has ended, its last summary reports the exit exactly
when the turn that ended it delivers it. -/
theorem exit_reported_iff {state : SharedSessionState} {geometry : TerminalGeometry}
    {exit : ChannelMsg} {text : String} {pre mid rest : List ChannelMsg}
    (hstart : Worker.start G state geometry (pre ++ exit :: (mid ++ .close :: rest)) = .ok w)
    (hexit : exit.exit_text = some text)
    (hpre : ∀ m ∈ pre, m.exit_text = none ∧ m ≠ .close) (hmid : ∀ m ∈ mid, m.exit_text = none)
    (turns : List Turn) (t : Turn) (hrunning : (w.run G E turns).running = true)
    (hended : (w.run G E (turns ++ [t])).running = false) :
    (w.run G E (turns ++ [t])).state.summary.exit_status = some text ↔
      Delivers G pre (mid ++ .close :: rest).length (w.run G E turns) t := by
  obtain ⟨read, hsplit, hstatus, hends⟩ := (start_reading hstart).run (E := E) turns hrunning
  have htext := exit_text_ne hexit
  rw [run_concat] at hended ⊢
  generalize w.run G E turns = v at hrunning hended hsplit hstatus ⊢
  cases t with
  | arrive command =>
    rw [turn_arrive hrunning] at hended
    exact absurd (hrunning.symm.trans hended) (by decide)
  | hangUp =>
    rw [turn_hangUp hrunning] at hended
    exact absurd (hrunning.symm.trans hended) (by decide)
  | message budget =>
    cases hpending : v.pending_command with
    | some command =>
      rw [turn_waits hrunning hpending] at hended
      exact absurd (hrunning.symm.trans hended) (by decide)
    | none =>
      rw [turn_message hrunning hpending] at hended ⊢
      obtain ⟨more, hmore⟩ := before_close_handled (G := G) budget v
      cases hclosed : (v.before_close G budget).2 with
      | false =>
        rw [hclosed, if_neg (by decide), hmore.running, hrunning] at hended
        cases hended
      | true =>
        rw [if_pos rfl]
        have hall : (v.before_close G budget).1.exit_status = last_exit (read ++ more) := by
          rw [hmore.exit_status, hstatus, last_exit_append]
        have hread : pre ++ exit :: (mid ++ .close :: rest) =
            (read ++ more) ++ (v.before_close G budget).1.unread := by
          rw [hsplit, hmore.unread, List.append_assoc]
        have hinner : ∀ m ∈ (read ++ more).dropLast, ends_session m = false := by
          intro m hm
          cases more with
          | nil =>
            rw [List.append_nil] at hm
            exact hends m (List.mem_of_mem_dropLast hm)
          | cons x more =>
            rw [List.dropLast_append_of_ne_nil (by simp)] at hm
            rcases List.mem_append.mp hm with hm | hm
            · exact hends m hm
            · exact hmore.inner m hm
        have heof := last_exit_of_closed hexit hpre hmid hread hinner
          ((hmore.closes hclosed).imp_right fun ⟨m, hm, he⟩ =>
            ⟨m, List.mem_append_right _ hm, he⟩)
        rw [← hall] at heof
        have hpublished : ((v.before_close G budget).1.emulator.refresh G
            (some ((v.before_close G budget).1.exit_status.getD "remote session closed"))
            true).2.summary.exit_status = some text ↔ _ := refresh_exit_status_iff htext.1
        refine hpublished.trans ⟨fun ⟨hsome, hanswers⟩ => ?_, fun hdel => ?_⟩
        · refine .message (heof.mp ?_) hanswers
          cases hlast : (v.before_close G budget).1.exit_status with
          | none =>
            rw [hlast] at hsome
            exact absurd (Option.some.inj hsome).symm htext.2
          | some other =>
            rw [hlast] at hsome
            exact hsome
        · cases hdel with
          | message no_eof answers => exact ⟨by rw [heof.mpr no_eof]; rfl, answers⟩
  | command written =>
    rw [turn_command hrunning] at hended ⊢
    cases htake : v.take_command with
    | none =>
      rw [htake] at hended
      exact absurd (hrunning.symm.trans hended) (by decide)
    | some taken =>
      obtain ⟨command, w'⟩ := taken
      simp only [htake] at hended ⊢
      obtain ⟨hunread, hexit', hrun'⟩ := take_command_keeps htake
      have hlast := last_exit_of_read hexit (fun m hm => (hpre m hm).1) hmid hsplit fun m hm =>
        hends m (List.mem_of_mem_dropLast hm)
      rw [← hstatus] at hlast
      rcases apply_session_command_stops (hrun'.trans hrunning) hended with
        ⟨⟨error, hfail⟩, hscroll⟩ | hscroll
      · rw [hfail]
        constructor
        · intro h
          exact absurd (Option.some.inj h).symm htext.1
        · intro hdel
          cases hdel with
          | hung_up take scroll read answers =>
            rw [htake] at take
            cases take
            rw [hscroll] at scroll
            cases scroll
      · rw [apply_scroll hscroll]
        have hpublished : ((w'.scroll_batch G command).emulator.refresh G w'.exit_status
            false).2.summary.exit_status = some text ↔ _ := refresh_exit_status_iff htext.1
        refine hpublished.trans ?_
        rw [hexit']
        constructor
        · rintro ⟨hsome, hanswers⟩
          rcases hlast with h | h
          · exact .hung_up htake hscroll h.2 hanswers
          · rw [h.1] at hsome
            cases hsome
        · intro hdel
          cases hdel with
          | hung_up take scroll read answers =>
            rw [htake] at take
            cases take
            rcases hlast with h | h
            · exact ⟨h.1, answers⟩
            · omega

end Runs

namespace Sample

def encoders : Encoders Viewport where
  text _ := []
  key _ _ := .ok []
  mouse _ _ := .ok []
  paste _ _ := []

def state : SharedSessionState :=
  SharedSessionState.new "Connecting SSH session..." Terminal.Sample.geometry

/-- A session on a channel that will deliver the given messages. -/
def worker (messages : List ChannelMsg) : Worker Viewport Unit :=
  Worker.refresh Terminal.Sample.ghostty none true
    { emulator := TerminalEmulator.of ⟨36, 36, 0, Terminal.Sample.top_le⟩ () Terminal.Sample.geometry
        "Connecting SSH session..."
      state := state
      geometry := Terminal.Sample.geometry
      exit_status := none
      pending_command := none
      command_rx := []
      executed := []
      closed := false
      unread := messages
      running := true }

end Sample

theorem exit_reported_before_eof :
    ((Sample.worker [.data [104, 105], .exitStatus 7, .eof, .close]).run Terminal.Sample.ghostty
      Sample.encoders [.message 4, .message 0]).state.summary.exit_status =
        some "remote exited with status 7" := by
  have hstart : Worker.start Terminal.Sample.ghostty Sample.state Terminal.Sample.geometry
      ([.data [104, 105]] ++ .exitStatus 7 :: ([.eof] ++ .close :: [])) =
        .ok (Sample.worker [.data [104, 105], .exitStatus 7, .eof, .close]) := rfl
  refine (exit_reported_iff hstart (E := Sample.encoders) rfl (by decide) (by decide) [.message 4]
    (.message 0) rfl rfl).mpr ?_
  exact .message (by decide) ⟨_, _, rfl⟩

/-- `Eof` ahead of the exit status, as a server may send it: the status is never read. -/
theorem exit_lost_after_eof :
    ((Sample.worker [.data [104, 105], .eof, .exitStatus 7, .close]).run Terminal.Sample.ghostty
      Sample.encoders [.message 0, .message 0]).state.summary.exit_status =
        some "remote session closed" ∧
      ((Sample.worker [.data [104, 105], .eof, .exitStatus 7, .close]).run Terminal.Sample.ghostty
        Sample.encoders [.message 0, .message 0]).running = false :=
  ⟨rfl, rfl⟩

end Seance.Ssh
