import Seance.Lib.Runs
import Seance.Terminal.LocalSession

namespace Seance.Terminal
open Lib

/-- An executed command stands for what was sent: itself, or a run of `DeltaRows` it is the sum
of. -/
inductive StandsFor : SessionCommand → List SessionCommand → Prop
  | itself (command : SessionCommand) : StandsFor command [command]
  | run (first : Isize) (rest : List Isize) :
      StandsFor
        (.deltaRows ((first :: rest).foldl Isize.saturating_add ⟨0, by decide⟩))
        ((first :: rest).map SessionCommand.deltaRows)

/-- The executed commands with every merged one replaced by its run. -/
inductive Expands : List SessionCommand → List SessionCommand → Prop
  | nil : Expands [] []
  | cons {command : SessionCommand} {run executed expanded : List SessionCommand}
      (stands : StandsFor command run) (rest : Expands executed expanded) :
      Expands (command :: executed) (run ++ expanded)

namespace Expands

variable {executed expanded executed' expanded' : List SessionCommand}

theorem append (h : Expands executed expanded) (h' : Expands executed' expanded') :
    Expands (executed ++ executed') (expanded ++ expanded') := by
  induction h with
  | nil => exact h'
  | cons stands rest ih =>
    rw [List.append_assoc]
    exact .cons stands ih

theorem single {command : SessionCommand} {run : List SessionCommand}
    (h : StandsFor command run) : Expands [command] run := by
  have hcons := cons h nil
  rwa [List.append_nil] at hcons

end Expands

/-- The run the compaction loop has pending. -/
structure PendingRun (pending_delta : Option Isize) (deltas : List Isize) : Prop where
  started : pending_delta.isSome = !deltas.isEmpty
  sum : pending_delta.getD ⟨0, by decide⟩ = deltas.foldl Isize.saturating_add ⟨0, by decide⟩

theorem PendingRun.expands {pending_delta : Option Isize} {deltas : List Isize}
    (h : PendingRun pending_delta deltas) :
    Expands (take_pending pending_delta) (deltas.map SessionCommand.deltaRows) := by
  obtain ⟨hstarted, hsum⟩ := h
  cases deltas with
  | nil =>
    cases pending_delta with
    | none => exact .nil
    | some sum => cases hstarted
  | cons first rest =>
    cases pending_delta with
    | none => cases hstarted
    | some sum =>
      rw [Option.getD_some] at hsum
      subst hsum
      exact .single (.run first rest)

/-- Where the compaction loop stands: what it has put out, and the run it has pending. -/
def Compacted (s : Compacting) (commands : List SessionCommand) : Prop :=
  ∃ expanded deltas, Expands s.1 expanded ∧ PendingRun s.2 deltas ∧
    commands = expanded ++ deltas.map SessionCommand.deltaRows

theorem Compacted.expands {s : Compacting} {commands : List SessionCommand}
    (h : Compacted s commands) : Expands (s.1 ++ take_pending s.2) commands := by
  obtain ⟨expanded, deltas, hout, hpending, rfl⟩ := h
  exact hout.append hpending.expands

theorem Compacted.next {s : Compacting} {commands : List SessionCommand}
    (h : Compacted s commands) (command : SessionCommand) :
    Compacted (compact_next s command) (commands ++ [command]) := by
  unfold compact_next
  split
  · rename_i delta_rows
    obtain ⟨expanded, deltas, hout, hpending, rfl⟩ := h
    refine ⟨expanded, deltas ++ [delta_rows], hout, ⟨by simp, ?_⟩, by simp⟩
    rw [Option.getD_some, hpending.sum, List.foldl_append]
    rfl
  · have hout := h.expands.append (.single (.itself command))
    exact ⟨commands ++ [command], [], hout, ⟨rfl, rfl⟩, by simp⟩

/-- The compacted batch is the drained one but for its runs. -/
theorem compact_expands (drained : List SessionCommand) :
    Expands (compact_scroll_command_burst drained) drained := by
  have hloop (commands : List SessionCommand) (s : Compacting) (before : List SessionCommand)
      (h : Compacted s before) : Compacted (commands.foldl compact_next s) (before ++ commands) := by
    induction commands generalizing s before with
    | nil => rwa [List.append_nil]
    | cons command rest ih =>
      have hrest := ih _ _ (h.next command)
      rwa [List.append_assoc] at hrest
  exact (hloop drained ([], none) [] ⟨[], [], .nil, ⟨rfl, rfl⟩, rfl⟩).expands

/-- What a session has executed of the commands it was sent, and what still waits. -/
def InOrder (sent executed waiting : List SessionCommand) : Prop :=
  ∃ expanded, Expands executed expanded ∧ sent = expanded ++ waiting

namespace InOrder

variable {sent executed waiting : List SessionCommand}

theorem waits (waiting : List SessionCommand) : InOrder waiting [] waiting := ⟨[], .nil, rfl⟩

theorem arrive (h : InOrder sent executed waiting) (command : SessionCommand) :
    InOrder (sent ++ [command]) executed (waiting ++ [command]) := by
  obtain ⟨expanded, hexpands, rfl⟩ := h
  exact ⟨expanded, hexpands, List.append_assoc _ _ _⟩

theorem execute {done taken : List SessionCommand} (h : InOrder sent executed (taken ++ waiting))
    (hdone : Expands done taken) : InOrder sent (executed ++ done) waiting := by
  obtain ⟨expanded, hexpands, rfl⟩ := h
  exact ⟨expanded ++ taken, hexpands.append hdone, (List.append_assoc _ _ _).symm⟩

/-- No run begins with a command other than a scroll, so it is executed as it is. -/
theorem next {first : SessionCommand} (h : InOrder (first :: sent) executed waiting)
    (hfirst : is_scroll_session_command first = false) :
    executed = [] ∨ executed.head? = some first := by
  obtain ⟨expanded, hexpands, hsent⟩ := h
  cases hexpands with
  | nil => exact Or.inl rfl
  | cons stands rest =>
    cases stands with
    | itself command =>
      cases hsent
      exact Or.inr rfl
    | run delta deltas =>
      cases hsent
      cases hfirst

end InOrder

/-- What a turn sends goes behind the waiting commands, and what it executes comes from their
front. -/
def Serves (waiting waiting' sends executes : List SessionCommand) : Prop :=
  ∀ sent executed, InOrder sent executed waiting →
    InOrder (sent ++ sends) (executed ++ executes) waiting'

namespace Serves

variable {waiting waiting' done taken : List SessionCommand}

theorem of_eq (h : waiting' = waiting) : Serves waiting waiting' [] [] := by
  intro sent executed hin
  rw [List.append_nil, List.append_nil, h]
  exact hin

theorem of_done (h : waiting = taken ++ waiting') (hdone : Expands done taken) :
    Serves waiting waiting' [] done := by
  intro sent executed hin
  rw [List.append_nil]
  rw [h] at hin
  exact hin.execute hdone

theorem of_arrive (command : SessionCommand) (h : waiting' = waiting ++ [command]) :
    Serves waiting waiting' [command] [] := by
  intro sent executed hin
  rw [List.append_nil, h]
  exact hin.arrive command

end Serves

section LocalSession

variable {T R : Type} {G : Ghostty T R}

namespace LocalWorker

/-- The batch that is being drained. -/
def in_hand (w : LocalWorker T R) : List SessionCommand :=
  match w.stage with
  | .batching drained => drained
  | _ => []

theorem in_hand_of_stage {w : LocalWorker T R} (h : ∀ drained, w.stage ≠ .batching drained) :
    w.in_hand = [] := by
  unfold in_hand
  split
  · rename_i drained hstage
    exact absurd hstage (h drained)
  · rfl

/-- The command that is taken up next. -/
def next_command (w : LocalWorker T R) : Option SessionCommand :=
  w.pending_command.or w.command_rx.head?

/-- The commands that wait, in the order in which they will be taken up. -/
def waiting (w : LocalWorker T R) : List SessionCommand :=
  w.in_hand ++ w.pending_command.toList ++ w.command_rx

def sends (w : LocalWorker T R) : LocalTurn → List SessionCommand
  | .arrive command => if w.closed || w.stage = .ended then [] else [command]
  | _ => []

variable (G) in
def sent (w : LocalWorker T R) (turns : List LocalTurn) : List SessionCommand :=
  emitted (turn G) sends w turns

section Stages

variable (w : LocalWorker T R) (stage : LoopStage)

@[simp] theorem at_stage_pending_command :
    (w.at_stage stage).pending_command = w.pending_command := rfl

@[simp] theorem at_stage_command_rx : (w.at_stage stage).command_rx = w.command_rx := rfl

@[simp] theorem at_stage_stage : (w.at_stage stage).stage = stage := rfl

variable (drained : List SessionCommand)

@[simp] theorem scroll_batch_pending_command :
    (w.scroll_batch G drained).pending_command = w.pending_command := rfl

@[simp] theorem scroll_batch_command_rx :
    (w.scroll_batch G drained).command_rx = w.command_rx := rfl

end Stages

/-- Only a command that ended a drain is parked, and none while the next batch is drained. -/
structure Parking (w : LocalWorker T R) : Prop where
  other : ∀ parked, w.pending_command = some parked → is_scroll_session_command parked = false
  batch : ∀ drained, w.stage = .batching drained → w.pending_command = none

/-- A step that takes nothing from the channel and executes nothing, with no batch begun. -/
structure Leaves (w w' : LocalWorker T R) : Prop where
  pending_command : w'.pending_command = w.pending_command
  command_rx : w'.command_rx = w.command_rx
  executed : w'.executed = w.executed
  stage : ∀ drained, w'.stage ≠ .batching drained

namespace Leaves

variable {w w' : LocalWorker T R}

theorem fail (error : Error) (hpending : w'.pending_command = w.pending_command)
    (hrx : w'.command_rx = w.command_rx) (hexecuted : w'.executed = w.executed) :
    Leaves w (w'.fail error) := ⟨hpending, hrx, hexecuted, nofun⟩

theorem write_input_bytes (answer : LocalAnswer) (bytes : List UInt8) (w : LocalWorker T R) :
    Leaves w (w.write_input_bytes answer bytes) := by
  unfold LocalWorker.write_input_bytes
  split
  · exact ⟨rfl, rfl, rfl, nofun⟩
  · exact fail _ rfl rfl rfl

theorem write_encoded (answer : LocalAnswer) (w : LocalWorker T R) :
    Leaves w (w.write_encoded answer) := by
  unfold LocalWorker.write_encoded
  split
  · exact ⟨rfl, rfl, rfl, nofun⟩
  · exact write_input_bytes _ _ _

theorem encode_event (answer : LocalAnswer) (w : LocalWorker T R) :
    Leaves w (w.encode_event answer) := by
  unfold LocalWorker.encode_event
  split
  · exact write_encoded _ _
  · exact fail _ rfl rfl rfl

theorem resize_terminal (answer : LocalAnswer) (new_geometry : TerminalGeometry)
    (w : LocalWorker T R) : Leaves w (w.resize_terminal G answer new_geometry) := by
  unfold LocalWorker.resize_terminal
  split
  · exact fail _ rfl rfl rfl
  · dsimp only
    split
    · exact fail _ rfl rfl rfl
    · exact ⟨rfl, rfl, rfl, nofun⟩

/-- Any command but a scroll is executed at once. -/
theorem apply_command {command : SessionCommand} (h : is_scroll_session_command command = false)
    (answer : LocalAnswer) (w : LocalWorker T R) :
    Leaves (w.execute [command]) (w.apply_command G command answer) := by
  unfold LocalWorker.apply_command
  split
  · exact write_input_bytes _ _ _
  · exact write_encoded _ _
  · exact write_encoded _ _
  · exact encode_event _ _
  · exact encode_event _ _
  · split
    · exact ⟨rfl, rfl, rfl, nofun⟩
    · exact resize_terminal _ _ _
  · cases h
  · cases h
  · exact ⟨rfl, rfl, rfl, nofun⟩
  · exact ⟨rfl, rfl, rfl, nofun⟩
  · exact ⟨rfl, rfl, rfl, nofun⟩

end Leaves

theorem apply_command_scroll {command : SessionCommand}
    (h : is_scroll_session_command command = true) (answer : LocalAnswer) (w : LocalWorker T R) :
    w.apply_command G command answer = w.at_stage (.batching [command]) := by
  unfold is_scroll_session_command at h
  split at h
  · rfl
  · rfl
  · cases h

variable (G) in
/-- What a turn does that executes `done`: it applies a single command, or takes the emulator
through a batch and refreshes it. -/
inductive CarriesOut (w w' : LocalWorker T R) : List SessionCommand → Prop
  | nothing : CarriesOut w w' []
  | command {command : SessionCommand} (pending_command : Option SessionCommand)
      (command_rx : List SessionCommand) (answer : LocalAnswer)
      (taken : w.next_command = some command)
      (applied : w' = { w with
        pending_command := pending_command
        command_rx := command_rx }.apply_command G command answer) : CarriesOut w w' [command]
  | batch {done : List SessionCommand}
      (applied : w'.emulator = ((apply_batch G done w.emulator).refresh G none false).1) :
      CarriesOut w w' done

variable (G) in
/-- What a turn does to the commands: `done` is what it executes. -/
structure Turned (w w' : LocalWorker T R) (sends done : List SessionCommand) : Prop where
  parking : Parking w'
  executed : w'.executed = w.executed ++ done
  carried : CarriesOut G w w' done
  serves : Serves w.waiting w'.waiting sends done

theorem Leaves.parking {w w' : LocalWorker T R} (h : Leaves w w')
    (hother : ∀ parked, w.pending_command = some parked →
      is_scroll_session_command parked = false) : Parking w' where
  other := by
    intro parked hparked
    rw [h.pending_command] at hparked
    exact hother parked hparked
  batch drained hstage := absurd hstage (h.stage drained)

theorem Leaves.waiting {w w' : LocalWorker T R} (h : Leaves w w') :
    w'.waiting = w.pending_command.toList ++ w.command_rx := by
  have hhand : w'.in_hand = [] := in_hand_of_stage h.stage
  unfold LocalWorker.waiting
  rw [hhand, h.pending_command, h.command_rx, List.nil_append]

/-- A step outside the receive and the drain of a batch. -/
theorem Leaves.turned {w w' : LocalWorker T R} (h : Leaves w w') (hp : Parking w)
    (hstage : ∀ drained, w.stage ≠ .batching drained) : Turned G w w' [] [] := by
  refine ⟨h.parking hp.other, by rw [h.executed, List.append_nil], .nothing, .of_eq ?_⟩
  rw [h.waiting]
  unfold LocalWorker.waiting
  rw [in_hand_of_stage hstage, List.nil_append]

theorem receive_turned {w : LocalWorker T R} (hp : Parking w) (hstage : w.stage = .receiving)
    (answer : LocalAnswer) : ∃ done, Turned G w (w.receive G answer) [] done := by
  have hhand : w.in_hand = [] := by simp only [in_hand, hstage]
  unfold receive
  split
  · -- a parked command is none of the scroll commands
    rename_i _ parked hparked
    have hother := hp.other parked hparked
    have hleaves := Leaves.apply_command (G := G) hother answer { w with pending_command := none }
    have hnext : w.next_command = some parked := by simp [next_command, hparked]
    refine ⟨[parked], hleaves.parking (by simp [execute]), hleaves.executed,
      .command none w.command_rx answer hnext rfl, .of_done ?_ (.single (.itself parked))⟩
    rw [hleaves.waiting]
    simp [waiting, execute, hhand, hparked]
  · rename_i command rest hparked hrx
    cases hscroll : is_scroll_session_command command with
    | true =>
      rw [apply_command_scroll hscroll]
      refine ⟨[], ⟨by simp [hparked], fun _ _ => hparked⟩, by simp [at_stage], .nothing, .of_eq ?_⟩
      simp [waiting, in_hand, hstage, hparked, hrx]
    | false =>
      have hleaves := Leaves.apply_command (G := G) hscroll answer { w with command_rx := rest }
      have hnext : w.next_command = some command := by simp [next_command, hparked, hrx]
      refine ⟨[command], hleaves.parking (by simp [execute, hparked]), hleaves.executed,
        .command w.pending_command rest answer hnext rfl, .of_done ?_ (.single (.itself command))⟩
      rw [hleaves.waiting]
      simp [waiting, execute, hhand, hparked, hrx]
  · refine ⟨[], Leaves.turned ⟨rfl, rfl, rfl, ?_⟩ hp (by simp [hstage])⟩
    cases w.closed <;> simp

theorem drain_next_turned {w : LocalWorker T R} (hp : Parking w) {drained : List SessionCommand}
    (hstage : w.stage = .batching drained) :
    ∃ done, Turned G w (w.drain_next G drained) [] done := by
  have hparked : w.pending_command = none := hp.batch drained hstage
  unfold drain_next
  split
  · rename_i command rest hrx
    split
    · refine ⟨[], ⟨by simp [hparked], fun _ _ => hparked⟩, by simp [at_stage], .nothing,
        .of_eq ?_⟩
      simp [waiting, in_hand, hstage, hparked, hrx]
    · rename_i hscroll
      refine ⟨_, ⟨?_, by simp⟩, rfl, .batch rfl, .of_done ?_ (compact_expands drained)⟩
      · rintro parked ⟨rfl⟩
        simpa using hscroll
      · simp [waiting, in_hand, hstage, hparked, hrx]
  · rename_i hrx
    refine ⟨_, ⟨by simp, fun _ _ => rfl⟩, rfl, .batch rfl, .of_done ?_ (compact_expands drained)⟩
    cases w.closed <;> simp [waiting, in_hand, hstage, hparked, hrx]

/-- What one step of the loop does to the commands. -/
theorem step_turned {w : LocalWorker T R} (hp : Parking w) (answer : LocalAnswer) :
    ∃ done, Turned G w (w.step G answer) [] done := by
  unfold step
  cases hstage : w.stage with
  | start => exact ⟨[], Leaves.turned ⟨rfl, rfl, rfl, by simp⟩ hp (by simp [hstage])⟩
  | draining =>
    refine ⟨[], Leaves.turned ?_ hp (by simp [hstage])⟩
    dsimp only
    split
    · exact ⟨rfl, rfl, rfl, by simp⟩
    · refine ⟨rfl, rfl, rfl, ?_⟩
      cases answer.deadline_passed <;> simp
  | receiving => exact receive_turned hp hstage answer
  | batching drained => exact drain_next_turned hp hstage
  | settling =>
    refine ⟨[], Leaves.turned ?_ hp (by simp [hstage])⟩
    dsimp only
    split
    · cases w.changed <;> exact ⟨rfl, rfl, rfl, by simp⟩
    · exact ⟨rfl, rfl, rfl, by simp [write_output, record]⟩
  | polling =>
    refine ⟨[], Leaves.turned ?_ hp (by simp [hstage])⟩
    dsimp only
    split
    · exact .fail _ rfl rfl rfl
    · exact ⟨rfl, rfl, rfl, by simp⟩
    · exact ⟨rfl, rfl, rfl, by simp⟩
  | exiting status =>
    refine ⟨[], Leaves.turned ?_ hp (by simp [hstage])⟩
    dsimp only
    split
    · exact ⟨rfl, rfl, rfl, by simp⟩
    · exact ⟨rfl, rfl, rfl, by simp [write_output, record]⟩
  | ended => exact ⟨[], Leaves.turned ⟨rfl, rfl, rfl, by simp [hstage]⟩ hp (by simp [hstage])⟩

/-- A turn outside the loop that touches none of the commands. -/
theorem Turned.aside {w w' : LocalWorker T R} (hp : Parking w)
    (hpending : w'.pending_command = w.pending_command) (hrx : w'.command_rx = w.command_rx)
    (hexecuted : w'.executed = w.executed) (hstage : w'.stage = w.stage) :
    Turned G w w' [] [] := by
  refine ⟨⟨?_, ?_⟩, by rw [hexecuted, List.append_nil], .nothing, .of_eq ?_⟩
  · rw [hpending]
    exact hp.other
  · rw [hpending, hstage]
    exact hp.batch
  · unfold LocalWorker.waiting in_hand
    rw [hpending, hrx, hstage]

theorem turn_turned {w : LocalWorker T R} (hp : Parking w) (t : LocalTurn) :
    ∃ done, Turned G w (w.turn G t) (w.sends t) done := by
  cases t with
  | worker answer => exact step_turned hp answer
  | arrive command =>
    unfold turn sends
    dsimp only
    split
    · exact ⟨[], .aside hp rfl rfl rfl rfl⟩
    · exact ⟨[], ⟨hp.other, hp.batch⟩, (List.append_nil _).symm, .nothing,
        .of_arrive command (List.append_assoc _ _ _).symm⟩
  | hangUp => exact ⟨[], .aside hp rfl rfl rfl rfl⟩
  | childWrites bytes =>
    unfold turn
    dsimp only
    split <;> exact ⟨[], .aside hp rfl rfl rfl rfl⟩
  | childExits status =>
    unfold turn
    dsimp only
    split <;> exact ⟨[], .aside hp rfl rfl rfl rfl⟩
  | readerReads read =>
    unfold turn
    dsimp only
    split <;> exact ⟨[], .aside hp rfl rfl rfl rfl⟩
  | readerSends =>
    unfold turn
    dsimp only
    split <;> exact ⟨[], .aside hp rfl rfl rfl rfl⟩

/-- From every state on, what is executed is what waits, then what is sent, up to what is left. -/
theorem run_in_order {w : LocalWorker T R} (hp : Parking w) (turns : List LocalTurn) :
    (∃ done, (w.run G turns).executed = w.executed ++ done ∧
      InOrder (w.waiting ++ w.sent G turns) done (w.run G turns).waiting) ∧
      Parking (w.run G turns) := by
  refine emitted_keeps (I := fun sent v => (∃ done, v.executed = w.executed ++ done ∧
    InOrder sent done v.waiting) ∧ Parking v) ?_ ⟨⟨[], by simp, .waits _⟩, hp⟩ turns
  rintro sent v t ⟨⟨done, hdone, hin⟩, hparking⟩
  obtain ⟨more, hturned⟩ := turn_turned (G := G) hparking t
  refine ⟨⟨done ++ more, ?_, hturned.serves _ _ hin⟩, hturned.parking⟩
  rw [hturned.executed, hdone, List.append_assoc]

theorem launch_parking {state : SharedSessionState} {w : LocalWorker T R}
    (h : launch G state = .ok w) : Parking w ∧ w.waiting = [] ∧ w.executed = [] := by
  obtain ⟨emulator, _, h⟩ := except_bind_ok.mp h
  cases h
  refine ⟨⟨?_, fun _ _ => rfl⟩, rfl, rfl⟩
  intro parked hparked
  cases show none = some parked from hparked

theorem run_append (w : LocalWorker T R) (turns more : List LocalTurn) :
    w.run G (turns ++ more) = (w.run G turns).run G more := List.foldl_append

/-- A parked command is the next one to be executed. -/
theorem parked_next {w : LocalWorker T R} (hp : Parking w) {parked : SessionCommand}
    (hparked : w.pending_command = some parked) (turns : List LocalTurn) :
    ∃ done, (w.run G turns).executed = w.executed ++ done ∧
      (done = [] ∨ done.head? = some parked) := by
  have hstage (drained : List SessionCommand) : w.stage ≠ .batching drained := by
    intro hstage
    rw [hp.batch drained hstage] at hparked
    cases hparked
  obtain ⟨⟨done, hdone, hin⟩, _⟩ := run_in_order (G := G) hp turns
  unfold waiting at hin
  rw [in_hand_of_stage hstage, hparked] at hin
  exact ⟨done, hdone, hin.next (hp.other parked hparked)⟩

end LocalWorker

end LocalSession

end Seance.Terminal
