import Seance.Ssh.Reported
import Seance.Terminal.InOrder

namespace Seance.Ssh
open Lib Terminal

section Runs

variable {T R : Type} {G : Ghostty T R} {E : Encoders T}

namespace Worker

/-- The commands that wait, in the order in which they will be taken up. -/
def waiting (w : Worker T R) : List SessionCommand := w.pending_command.toList ++ w.command_rx

def sends (w : Worker T R) : Turn → List SessionCommand
  | .arrive command => if w.running then [command] else []
  | _ => []

variable (G E) in
def sent (w : Worker T R) (turns : List Turn) : List SessionCommand :=
  emitted (turn G E) sends w turns

/-- Only a command that ended a drain is parked. -/
def Parking (w : Worker T R) : Prop :=
  ∀ parked, w.pending_command = some parked → is_scroll_session_command parked = false

/-- A step that takes nothing from the channel and executes nothing. -/
structure Leaves (w w' : Worker T R) : Prop where
  pending_command : w'.pending_command = w.pending_command
  command_rx : w'.command_rx = w.command_rx
  executed : w'.executed = w.executed

namespace Leaves

variable {w w' w'' : Worker T R}

theorem trans (h : Leaves w w') (h' : Leaves w' w'') : Leaves w w'' :=
  ⟨h'.pending_command.trans h.pending_command, h'.command_rx.trans h.command_rx,
    h'.executed.trans h.executed⟩

theorem parking (h : Leaves w w') (hp : Parking w) : Parking w' := by
  unfold Parking
  rw [h.pending_command]
  exact hp

theorem waiting (h : Leaves w w') : w'.waiting = w.waiting := by
  unfold Worker.waiting
  rw [h.pending_command, h.command_rx]

theorem write_input (written : Except Error Unit) (w : Worker T R) :
    Leaves w (w.write_input written) := by
  unfold Worker.write_input
  split <;> exact ⟨rfl, rfl, rfl⟩

theorem write_encoded (written : Except Error Unit) (bytes : Except Error (List UInt8))
    (w : Worker T R) : Leaves w (w.write_encoded written bytes) := by
  unfold Worker.write_encoded
  split
  · exact ⟨rfl, rfl, rfl⟩
  · exact write_input _ _
  · exact ⟨rfl, rfl, rfl⟩

/-- Any command but a scroll is executed at once. -/
theorem apply_session_command {command : SessionCommand}
    (h : is_scroll_session_command command = false) (written : Except Error Unit)
    (w : Worker T R) :
    Leaves (w.execute [command]) (w.apply_session_command G E command written) := by
  unfold Worker.apply_session_command
  split
  · exact write_input _ _
  · exact write_encoded _ _ _
  · exact write_encoded _ _ _
  · exact write_encoded _ _ _
  · exact write_encoded _ _ _
  · exact ⟨rfl, rfl, rfl⟩
  · cases h
  · cases h
  · exact ⟨rfl, rfl, rfl⟩
  · exact ⟨rfl, rfl, rfl⟩
  · exact ⟨rfl, rfl, rfl⟩

theorem drain_data_burst (budget : Nat) (w : Worker T R) :
    Leaves w (w.drain_data_burst G budget).1 := by
  induction budget generalizing w with
  | zero => exact ⟨rfl, rfl, rfl⟩
  | succ budget ih =>
    unfold Worker.drain_data_burst
    split
    · exact ⟨rfl, rfl, rfl⟩
    · rename_i data rest hunread
      have hrest := ih ({ w with unread := rest }.write_output G data)
      exact ⟨hrest.pending_command, hrest.command_rx, hrest.executed⟩
    · rename_i data _ rest hunread
      have hrest := ih ({ w with unread := rest }.write_output G data)
      exact ⟨hrest.pending_command, hrest.command_rx, hrest.executed⟩
    · exact ⟨rfl, rfl, rfl⟩

theorem read_output (budget : Nat) (data : List UInt8) (w : Worker T R) :
    Leaves w (w.read_output G budget data).1 := by
  have hdrain := drain_data_burst (G := G) budget (w.write_output G data)
  exact ⟨hdrain.pending_command, hdrain.command_rx, hdrain.executed⟩

theorem before_close (budget : Nat) (w : Worker T R) : Leaves w (w.before_close G budget).1 := by
  have hread : Leaves w (w.read_message G budget).1 := by
    unfold Worker.read_message
    split
    · exact ⟨rfl, rfl, rfl⟩
    · rename_i data rest hunread
      have hread := read_output (G := G) budget data { w with unread := rest }
      exact ⟨hread.pending_command, hread.command_rx, hread.executed⟩
    · rename_i data _ rest hunread
      have hread := read_output (G := G) budget data { w with unread := rest }
      exact ⟨hread.pending_command, hread.command_rx, hread.executed⟩
    · exact ⟨rfl, rfl, rfl⟩
  refine hread.trans ?_
  unfold Worker.before_close Worker.dispatch
  dsimp only
  split
  · exact ⟨rfl, rfl, rfl⟩
  · exact ⟨rfl, rfl, rfl⟩
  · split <;> exact ⟨rfl, rfl, rfl⟩
  · exact ⟨rfl, rfl, rfl⟩

end Leaves

theorem take_command_eq {w w' : Worker T R} {command : SessionCommand}
    (h : w.take_command = some (command, w')) :
    w.waiting = command :: w'.command_rx ∧ w'.pending_command = none ∧
      w'.executed = w.executed ∧ w'.emulator = w.emulator := by
  unfold take_command at h
  unfold waiting
  split at h
  · rename_i parked rest hparked
    cases h
    rw [hparked]
    exact ⟨rfl, rfl, rfl, rfl⟩
  · rename_i next rest hparked hrx
    cases h
    exact ⟨by rw [hparked, hrx]; rfl, hparked, rfl, rfl⟩
  · cases h

/-- The commands a batch drains, the one it parks and the rest are the queue. -/
theorem drained_queue (command : SessionCommand) (command_rx : List SessionCommand)
    (closed : Bool) :
    command :: command_rx = command :: command_rx.takeWhile is_scroll_session_command ++
      ((drain_scroll_command_batch command command_rx closed).deferred_command.toList ++
        (drain_scroll_command_batch command command_rx closed).command_rx) := by
  have hsplit := List.takeWhile_append_dropWhile (p := is_scroll_session_command) (l := command_rx)
  unfold drain_scroll_command_batch
  dsimp only
  conv_lhs => rw [← hsplit]
  cases command_rx.dropWhile is_scroll_session_command <;> simp

theorem deferred_other {command parked : SessionCommand} {command_rx : List SessionCommand}
    {closed : Bool}
    (h : (drain_scroll_command_batch command command_rx closed).deferred_command = some parked) :
    is_scroll_session_command parked = false := by
  have hhead := List.head?_dropWhile_not is_scroll_session_command command_rx
  unfold drain_scroll_command_batch at h
  dsimp only at h
  rw [h] at hhead
  simpa using hhead

variable (G E) in
/-- What a turn does that executes `done`: it applies a single command, or takes the emulator
through a batch and refreshes it. -/
inductive CarriesOut (w w' : Worker T R) : List SessionCommand → Prop
  | nothing : CarriesOut w w' []
  | command {command : SessionCommand} {v : Worker T R} (written : Except Error Unit)
      (taken : w.take_command = some (command, v))
      (applied : w' = v.apply_session_command G E command written) : CarriesOut w w' [command]
  | batch {done : List SessionCommand}
      (applied : w'.emulator = ((apply_batch G done w.emulator).refresh G w.exit_status false).1) :
      CarriesOut w w' done

variable (G E) in
/-- What a turn does to the commands: `done` is what it executes. -/
structure Turned (w w' : Worker T R) (sends done : List SessionCommand) : Prop where
  parking : Parking w'
  executed : w'.executed = w.executed ++ done
  carried : CarriesOut G E w w' done
  serves : Serves w.waiting w'.waiting sends done

theorem Turned.of_eq {w w' : Worker T R} (hp : Parking w') (hexecuted : w'.executed = w.executed)
    (hwaiting : w'.waiting = w.waiting) : ∃ done, Turned G E w w' [] done :=
  ⟨[], hp, by rw [hexecuted, List.append_nil], .nothing, .of_eq hwaiting⟩

theorem Leaves.turned {w w' : Worker T R} (h : Leaves w w') (hp : Parking w) :
    ∃ done, Turned G E w w' [] done := Turned.of_eq (h.parking hp) h.executed h.waiting

theorem apply_scroll_turned {w w' : Worker T R} {command : SessionCommand}
    (htake : w.take_command = some (command, w'))
    (hscroll : is_scroll_session_command command = true) (written : Except Error Unit) :
    ∃ done, Turned G E w (w'.apply_session_command G E command written) [] done := by
  have happly : w'.apply_session_command G E command written =
      { (w'.scroll_batch G command).refresh G w'.exit_status false with
        running := !w'.hung_up command } := by
    unfold apply_session_command
    split <;> first | rfl | cases hscroll
  obtain ⟨hwaiting, -, hexecuted, hemulator⟩ := take_command_eq htake
  let drained := drain_scroll_command_batch command w'.command_rx w'.closed
  rw [happly]
  refine ⟨drained.batch, fun parked hparked => ?_, ?_, .batch ?_,
    .of_done ?_ (compact_expands _)⟩
  · exact deferred_other (show drained.deferred_command = some parked from hparked)
  · exact congrArg (· ++ drained.batch) hexecuted
  · rw [← hemulator, ← (take_command_keeps htake).2.1]
    rfl
  · rw [hwaiting]
    exact drained_queue command w'.command_rx w'.closed

theorem apply_other_turned {w w' : Worker T R} {command : SessionCommand}
    (htake : w.take_command = some (command, w'))
    (hscroll : is_scroll_session_command command = false) (written : Except Error Unit) :
    ∃ done, Turned G E w (w'.apply_session_command G E command written) [] done := by
  have hleaves := Leaves.apply_session_command (G := G) (E := E) hscroll written w'
  obtain ⟨hwaiting, hpending, hexecuted, -⟩ := take_command_eq htake
  refine ⟨[command], hleaves.parking (by simp [Parking, execute, hpending]), ?_,
    .command written htake rfl, .of_done ?_ (.single (.itself command))⟩
  · rw [hleaves.executed, ← hexecuted]
    rfl
  · rw [hleaves.waiting, hwaiting]
    simp [waiting, execute, hpending]

theorem turn_turned {w : Worker T R} (hp : Parking w) (t : Turn) :
    ∃ done, Turned G E w (w.turn G E t) (w.sends t) done := by
  cases hrunning : w.running with
  | false =>
    have hidle : w.sends t = [] := by
      unfold sends
      cases t <;> simp [hrunning]
    rw [turn_stopped hrunning, hidle]
    exact Turned.of_eq hp rfl rfl
  | true =>
    cases t with
    | arrive command =>
      rw [turn_arrive hrunning]
      have hsends : w.sends (.arrive command) = [command] := if_pos hrunning
      rw [hsends]
      exact ⟨[], hp, (List.append_nil _).symm, .nothing,
        .of_arrive command (List.append_assoc _ _ _).symm⟩
    | hangUp =>
      rw [turn_hangUp hrunning]
      exact Turned.of_eq hp rfl rfl
    | command written =>
      rw [turn_command hrunning]
      cases htake : w.take_command with
      | none => exact Turned.of_eq hp rfl rfl
      | some taken =>
        obtain ⟨command, w'⟩ := taken
        cases hscroll : is_scroll_session_command command with
        | true => exact apply_scroll_turned htake hscroll written
        | false => exact apply_other_turned htake hscroll written
    | message budget =>
      cases hparked : w.pending_command with
      | some parked =>
        rw [turn_waits hrunning hparked]
        exact Turned.of_eq hp rfl rfl
      | none =>
        have hleaves := Leaves.before_close (G := G) budget w
        rw [turn_message hrunning hparked]
        split
        · exact Leaves.turned (hleaves.trans ⟨rfl, rfl, rfl⟩) hp
        · exact hleaves.turned hp

/-- From every state on, what is executed is what waits, then what is sent, up to what is left. -/
theorem run_in_order {w : Worker T R} (hp : Parking w) (turns : List Turn) :
    (∃ done, (w.run G E turns).executed = w.executed ++ done ∧
      InOrder (w.waiting ++ w.sent G E turns) done (w.run G E turns).waiting) ∧
      Parking (w.run G E turns) := by
  refine emitted_keeps (I := fun sent v => (∃ done, v.executed = w.executed ++ done ∧
    InOrder sent done v.waiting) ∧ Parking v) ?_ ⟨⟨[], by simp, .waits _⟩, hp⟩ turns
  rintro sent v t ⟨⟨done, hdone, hin⟩, hparking⟩
  obtain ⟨more, hturned⟩ := turn_turned (G := G) (E := E) hparking t
  refine ⟨⟨done ++ more, ?_, hturned.serves _ _ hin⟩, hturned.parking⟩
  rw [hturned.executed, hdone, List.append_assoc]

theorem start_parking {state : SharedSessionState} {geometry : TerminalGeometry}
    {messages : List ChannelMsg} {w : Worker T R}
    (h : Worker.start G state geometry messages = .ok w) :
    Parking w ∧ w.waiting = [] ∧ w.executed = [] := by
  obtain ⟨emulator, _, h⟩ := except_bind_ok.mp h
  cases h
  refine ⟨?_, rfl, rfl⟩
  intro parked hparked
  cases show none = some parked from hparked

theorem run_append (w : Worker T R) (turns more : List Turn) :
    w.run G E (turns ++ more) = (w.run G E turns).run G E more := List.foldl_append

theorem parked_next {w : Worker T R} (hp : Parking w) {parked : SessionCommand}
    (hparked : w.pending_command = some parked) (turns : List Turn) :
    ∃ done, (w.run G E turns).executed = w.executed ++ done ∧
      (done = [] ∨ done.head? = some parked) := by
  obtain ⟨⟨done, hdone, hin⟩, _⟩ := run_in_order (G := G) (E := E) hp turns
  unfold waiting at hin
  rw [hparked] at hin
  exact ⟨done, hdone, hin.next (hp parked hparked)⟩

end Worker

end Runs

end Seance.Ssh
