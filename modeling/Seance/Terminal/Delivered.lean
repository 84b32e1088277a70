import Seance.Terminal.Published

namespace Seance.Terminal
open Lib

/-- The output among the recorded events. -/
def recorded_output (transcript : List TranscriptEvent) : List UInt8 :=
  (transcript.filter fun event => event.stream = .output).flatMap TranscriptEvent.bytes

theorem recorded_output_input (transcript : List TranscriptEvent) (bytes : List UInt8) :
    recorded_output (transcript ++ [⟨.input, bytes⟩]) = recorded_output transcript := by
  simp [recorded_output]

theorem recorded_output_output (transcript : List TranscriptEvent) (bytes : List UInt8) :
    recorded_output (transcript ++ [⟨.output, bytes⟩]) = recorded_output transcript ++ bytes := by
  simp [recorded_output]

section LocalSession

variable {T R : Type} {G : Ghostty T R}

namespace LocalWorker

/-- What the child has written and the emulator has not been given: in the channel, in the hands
of the reader and in the PTY. -/
def on_the_way (w : LocalWorker T R) : List UInt8 :=
  w.output_rx.flatten ++ w.reader.getD [] ++ w.pty

/-- All the child wrote has been written to the emulator and recorded. -/
structure Delivered (w : LocalWorker T R) : Prop where
  written : w.written = w.child_output
  recorded : recorded_output w.transcript = w.child_output

/-- No byte of the child is lost, doubled or overtaken on its way. -/
structure Conserved (w : LocalWorker T R) : Prop where
  child_output : w.child_output = w.written ++ w.on_the_way
  recorded : recorded_output w.transcript = w.written

theorem Conserved.delivered_iff {w : LocalWorker T R} (h : Conserved w) :
    Delivered w ↔ w.on_the_way = [] := by
  constructor
  · intro hd
    have hlength := congrArg List.length h.child_output
    rw [hd.written, List.length_append] at hlength
    exact List.length_eq_zero_iff.mp (by omega)
  · intro hnone
    have hall := h.child_output
    rw [hnone, List.append_nil] at hall
    exact ⟨hall.symm, h.recorded.trans hall.symm⟩

/-- A step that takes no output. -/
structure Holds (w w' : LocalWorker T R) : Prop where
  written : w'.written = w.written
  recorded : recorded_output w'.transcript = recorded_output w.transcript
  child_output : w'.child_output = w.child_output
  on_the_way : w'.on_the_way = w.on_the_way

namespace Holds

variable {w w' : LocalWorker T R}

theorem refl (w : LocalWorker T R) : Holds w w := ⟨rfl, rfl, rfl, rfl⟩

theorem write_input_bytes (answer : LocalAnswer) (bytes : List UInt8) (w : LocalWorker T R) :
    Holds w (w.write_input_bytes answer bytes) := by
  unfold LocalWorker.write_input_bytes
  split <;> exact ⟨rfl, recorded_output_input _ _, rfl, rfl⟩

theorem write_encoded (answer : LocalAnswer) (w : LocalWorker T R) :
    Holds w (w.write_encoded answer) := by
  unfold LocalWorker.write_encoded
  split
  · exact ⟨rfl, rfl, rfl, rfl⟩
  · exact write_input_bytes _ _ _

theorem encode_event (answer : LocalAnswer) (w : LocalWorker T R) :
    Holds w (w.encode_event answer) := by
  unfold LocalWorker.encode_event
  split
  · exact write_encoded _ _
  · exact ⟨rfl, rfl, rfl, rfl⟩

theorem resize_terminal (answer : LocalAnswer) (new_geometry : TerminalGeometry)
    (w : LocalWorker T R) : Holds w (w.resize_terminal G answer new_geometry) := by
  unfold LocalWorker.resize_terminal
  split
  · exact ⟨rfl, rfl, rfl, rfl⟩
  · dsimp only
    split <;> exact ⟨rfl, rfl, rfl, rfl⟩

theorem of_execute {commands : List SessionCommand} (h : Holds (w.execute commands) w') :
    Holds w w' := ⟨h.written, h.recorded, h.child_output, h.on_the_way⟩

theorem apply_command (command : SessionCommand) (answer : LocalAnswer) (w : LocalWorker T R) :
    Holds w (w.apply_command G command answer) := by
  unfold LocalWorker.apply_command
  split
  · exact of_execute (write_input_bytes _ _ _)
  · exact of_execute (write_encoded _ _)
  · exact of_execute (write_encoded _ _)
  · exact of_execute (encode_event _ _)
  · exact of_execute (encode_event _ _)
  · split
    · exact ⟨rfl, rfl, rfl, rfl⟩
    · exact of_execute (resize_terminal _ _ _)
  all_goals exact ⟨rfl, rfl, rfl, rfl⟩

theorem receive (answer : LocalAnswer) (w : LocalWorker T R) :
    Holds w (w.receive G answer) := by
  unfold LocalWorker.receive
  split
  · rename_i _ command hparked
    have h := apply_command (G := G) command answer { w with pending_command := none }
    exact ⟨h.written, h.recorded, h.child_output, h.on_the_way⟩
  · rename_i command rest hparked hrx
    have h := apply_command (G := G) command answer { w with command_rx := rest }
    exact ⟨h.written, h.recorded, h.child_output, h.on_the_way⟩
  · exact ⟨rfl, rfl, rfl, rfl⟩

theorem drain_next (drained : List SessionCommand) (w : LocalWorker T R) :
    Holds w (w.drain_next G drained) := by
  unfold LocalWorker.drain_next
  split
  · split <;> exact ⟨rfl, rfl, rfl, rfl⟩
  · exact ⟨rfl, rfl, rfl, rfl⟩

end Holds

theorem Conserved.holds {w w' : LocalWorker T R} (h : Conserved w) (hw : Holds w w') :
    Conserved w' where
  child_output := by rw [hw.child_output, hw.written, hw.on_the_way, h.child_output]
  recorded := by rw [hw.recorded, hw.written, h.recorded]

/-- A chunk from the channel is written and recorded. -/
theorem Conserved.chunk {w w' : LocalWorker T R} (h : Conserved w) {bytes : List UInt8}
    {rest : List (List UInt8)} (hrx : w.output_rx = bytes :: rest)
    (hwritten : w'.written = w.written ++ bytes)
    (htranscript : w'.transcript = w.transcript ++ [⟨.output, bytes⟩])
    (hchild : w'.child_output = w.child_output)
    (hway : w'.on_the_way = rest.flatten ++ w.reader.getD [] ++ w.pty) : Conserved w' where
  child_output := by
    rw [hchild, hwritten, hway, h.child_output, on_the_way, hrx, List.flatten_cons]
    simp only [List.append_assoc]
  recorded := by rw [htranscript, recorded_output_output, h.recorded, hwritten]

theorem Conserved.step {w : LocalWorker T R} (h : Conserved w) (answer : LocalAnswer) :
    Conserved (w.step G answer) := by
  unfold LocalWorker.step
  split
  · exact h.holds ⟨rfl, rfl, rfl, rfl⟩
  · split
    · exact h.holds ⟨rfl, rfl, rfl, rfl⟩
    · rename_i bytes rest hrx
      exact h.chunk hrx rfl rfl rfl rfl
  · exact h.holds (Holds.receive answer w)
  · exact h.holds (Holds.drain_next _ w)
  · split
    · refine h.holds ?_
      cases w.changed <;> exact ⟨rfl, rfl, rfl, rfl⟩
    · rename_i bytes rest hrx
      exact h.chunk hrx rfl rfl rfl rfl
  · split <;> exact h.holds ⟨rfl, rfl, rfl, rfl⟩
  · split
    · exact h.holds ⟨rfl, rfl, rfl, rfl⟩
    · rename_i bytes rest hrx
      exact h.chunk hrx rfl rfl rfl rfl
  · exact h

theorem Conserved.turn {w : LocalWorker T R} (h : Conserved w) (t : LocalTurn) :
    Conserved (w.turn G t) := by
  cases t with
  | worker answer => exact h.step answer
  | arrive command =>
    unfold LocalWorker.turn
    dsimp only
    split
    · exact h
    · exact h.holds ⟨rfl, rfl, rfl, rfl⟩
  | hangUp => exact h.holds ⟨rfl, rfl, rfl, rfl⟩
  | childWrites bytes =>
    unfold LocalWorker.turn
    dsimp only
    split
    · exact h
    · refine ⟨?_, h.recorded⟩
      simp only [h.child_output, on_the_way, List.append_assoc]
  | childExits status =>
    unfold LocalWorker.turn
    dsimp only
    split
    · exact h
    · exact h.holds ⟨rfl, rfl, rfl, rfl⟩
  | readerReads read =>
    unfold LocalWorker.turn
    dsimp only
    split
    · exact h
    · rename_i hread
      have hreader : w.reader = none := by
        cases hr : w.reader with
        | none => rfl
        | some bytes => simp [hr] at hread
      refine ⟨?_, h.recorded⟩
      simp only [h.child_output, on_the_way, hreader, Option.getD_none, Option.getD_some,
        List.append_nil, List.append_assoc, List.take_append_drop]
  | readerSends =>
    unfold LocalWorker.turn
    dsimp only
    split
    · exact h
    · rename_i bytes hreader
      refine ⟨?_, h.recorded⟩
      simp only [h.child_output, on_the_way, hreader, Option.getD_none, Option.getD_some,
        List.flatten_append, List.flatten_singleton, List.append_nil, List.append_assoc]

theorem Conserved.run {w : LocalWorker T R} (h : Conserved w) (turns : List LocalTurn) :
    Conserved (w.run G turns) := by
  induction turns generalizing w with
  | nil => exact h
  | cons t rest ih => exact ih (h.turn t)

theorem launch_conserved {state : SharedSessionState} {w : LocalWorker T R}
    (h : launch G state = .ok w) : Conserved w := by
  obtain ⟨emulator, _, h⟩ := except_bind_ok.mp h
  cases h
  exact ⟨rfl, rfl⟩

/-- Outside the loop nothing moves it on. -/
theorem aside_stage (w : LocalWorker T R) {t : LocalTurn} (ht : ∀ answer, t ≠ .worker answer) :
    (w.turn G t).stage = w.stage := by
  unfold LocalWorker.turn
  split
  · split <;> rfl
  · rfl
  · split <;> rfl
  · split <;> rfl
  · split <;> rfl
  · split <;> rfl
  · rename_i answer
    exact absurd rfl (ht answer)

/-- The turn that ends the loop takes no output. -/
theorem ending_holds {w : LocalWorker T R} (hstage : w.stage ≠ .ended) {t : LocalTurn}
    (hended : (w.turn G t).stage = .ended) : (w.turn G t).on_the_way = w.on_the_way := by
  by_cases hworker : ∃ answer, t = .worker answer
  · obtain ⟨answer, rfl⟩ := hworker
    change (w.step G answer).stage = .ended at hended
    change (w.step G answer).on_the_way = w.on_the_way
    unfold LocalWorker.step at hended ⊢
    split at hended
    · rfl
    · split at hended
      · rfl
      · -- a chunk taken while draining leaves the loop where it reads on
        cases hd : answer.deadline_passed <;> simp [hd] at hended
    · exact (Holds.receive answer w).on_the_way
    · exact (Holds.drain_next _ w).on_the_way
    · rename_i hs
      split at hended
      · cases w.changed <;> rfl
      · simp [write_output, record, hs] at hended
    · split <;> rfl
    · rename_i status hs
      split at hended
      · rfl
      · simp [write_output, record, hs] at hended
    · rfl
  · rw [aside_stage w fun answer he => hworker ⟨answer, he⟩] at hended
    exact absurd hended hstage

end LocalWorker

/-- When the loop ends, by whatever turn, everything the child has written is in the emulator and
the transcript exactly if the reader had nothing left to read or to send and the channel was
empty. -/
theorem output_delivered_iff {state : SharedSessionState} {w : LocalWorker T R}
    (h : LocalWorker.launch G state = .ok w) (turns : List LocalTurn) (t : LocalTurn)
    (hrunning : (w.run G turns).stage ≠ .ended)
    (hended : ((w.run G turns).turn G t).stage = .ended) :
    ((w.run G turns).turn G t).Delivered ↔ (w.run G turns).on_the_way = [] := by
  have hrun := (LocalWorker.launch_conserved h).run (G := G) turns
  rw [(hrun.turn t).delivered_iff, LocalWorker.ending_holds hrunning hended]

end LocalSession

namespace Sample

/-- The loop from its start to the end of an iteration in which it finds the child gone. -/
def last_iteration : List LocalTurn := List.replicate 6 (.worker obliging)

end Sample

theorem delivered_printed :
    ((Sample.shell.run Sample.ghostty (Sample.printed ++ .childExits "exited" ::
      Sample.last_iteration)).turn Sample.ghostty (.worker Sample.obliging)).Delivered :=
  (output_delivered_iff (G := Sample.ghostty) (show LocalWorker.launch Sample.ghostty
    (SharedSessionState.new "Launching local shell..." TerminalGeometry.default) =
      .ok Sample.shell from rfl) _ (.worker Sample.obliging) (by decide) (by decide)).mpr (by decide)

/-- The child writes and exits before the reader comes to read: the exit is found, the channel is
empty, and the letter is lost. -/
theorem output_lost_at_exit :
    let w := Sample.shell.run Sample.ghostty
      (.childWrites [104] :: .childExits "exited" :: List.replicate 6 (.worker Sample.obliging))
    w.stage = .ended ∧ ¬w.Delivered :=
  ⟨by decide, fun h => absurd h.written (by decide)⟩

end Seance.Terminal
