import Seance.Lib.Runs
import Seance.Terminal.InOrder
import Seance.Terminal.Writes

namespace Seance.Terminal
open Lib

section LocalSession

variable {T R : Type} (G : Ghostty T R)

/-- The write to the PTY fails, where there is something to write. -/
def LocalAnswer.WriteFails (answer : LocalAnswer) (bytes : List UInt8) : Prop :=
  bytes ≠ [] ∧ ∃ error, answer.written = .error error

/-- The command leaves its iteration before the refresh: as a resize to the geometry there is, or
with an error. -/
def SessionCommand.CutsShort (answer : LocalAnswer) (current_geometry : TerminalGeometry)
    (terminal : T) : SessionCommand → Prop
  | .input _ => ∃ error, answer.written = .error error
  | .text _ | .paste _ => answer.WriteFails answer.encoded
  | .key _ | .mouse _ => answer.refused.isSome ∨ answer.WriteFails answer.encoded
  | .resize new_geometry =>
    new_geometry = current_geometry ∨ (∃ error, answer.pty_resized = .error error) ∨
      ∃ error, (G.resize new_geometry terminal).2 = .error error
  | _ => False

namespace LocalWorker

/-- What is received leaves the iteration before its refresh. -/
def ReceivesLast (answer : LocalAnswer) (w : LocalWorker T R) : Prop :=
  match w.next_command with
  | none => w.closed = true
  | some command => command.CutsShort G answer w.current_geometry w.emulator.terminal

def CutShort (w : LocalWorker T R) : LocalTurn → Prop
  | .worker answer => w.stage = .receiving ∧ w.ReceivesLast G answer
  | _ => False

/-- At the start of an iteration and at the end of the loop everything written is published. -/
def Published (w : LocalWorker T R) : Prop :=
  w.stage = .start ∨ w.stage = .ended → w.emulator.pending_vt_bytes = 0

/-- What the loop knows of the bytes it has not published. -/
structure Unpublished (w : LocalWorker T R) : Prop where
  between : w.stage = .start ∨ w.stage = .polling ∨ w.stage = .ended →
    w.emulator.pending_vt_bytes = 0
  unchanged : w.changed = false → (∀ status, w.stage ≠ .exiting status) →
    w.emulator.pending_vt_bytes = 0
  changed : w.changed = true → w.stage = .draining ∨ w.stage = .receiving →
    0 < w.emulator.pending_vt_bytes
  chunks : ∀ bytes ∈ w.output_rx, bytes ≠ []
  chunk : ∀ bytes ∈ w.reader, bytes ≠ []

/-- What the receive of a command comes to, by whether it is cut short. -/
structure Received (cut : Prop) (w w' : LocalWorker T R) : Prop where
  back : cut → (w'.stage = .start ∨ w'.stage = .ended) ∧
    w'.emulator.pending_vt_bytes = w.emulator.pending_vt_bytes
  on : ¬cut → (w'.stage = .settling ∨ ∃ drained, w'.stage = .batching drained) ∧
    (w'.emulator.pending_vt_bytes = w.emulator.pending_vt_bytes ∨
      w'.emulator.pending_vt_bytes = 0)
  changed : w'.changed = w.changed
  output_rx : w'.output_rx = w.output_rx
  reader : w'.reader = w.reader

variable {G}

namespace Received

variable {cut : Prop} {w w' : LocalWorker T R}

theorem of_settling (hcut : ¬cut) (w : LocalWorker T R) : Received cut w (w.at_stage .settling) where
  back h := absurd h hcut
  on _ := ⟨Or.inl rfl, Or.inl rfl⟩
  changed := rfl
  output_rx := rfl
  reader := rfl

theorem of_fail (hcut : cut) (error : Error) (w : LocalWorker T R) :
    Received cut w (w.fail error) where
  back _ := ⟨Or.inr rfl, rfl⟩
  on h := absurd hcut h
  changed := rfl
  output_rx := rfl
  reader := rfl

theorem of_iff {other : Prop} (h : Received cut w w') (hiff : cut ↔ other) :
    Received other w w' := by
  rwa [propext hiff] at h

theorem write_input_bytes (answer : LocalAnswer) (bytes : List UInt8) (w : LocalWorker T R) :
    Received (∃ error, answer.written = .error error) w (w.write_input_bytes answer bytes) := by
  unfold LocalWorker.write_input_bytes
  split
  · rename_i hwritten
    have hcut : ¬∃ error, answer.written = .error error := by simp [hwritten]
    exact ⟨fun h => absurd h hcut, fun _ => ⟨Or.inl rfl, Or.inl rfl⟩, rfl, rfl, rfl⟩
  · rename_i error hwritten
    have hcut : ∃ error, answer.written = .error error := ⟨error, hwritten⟩
    exact ⟨fun _ => ⟨Or.inr rfl, rfl⟩, fun h => absurd hcut h, rfl, rfl, rfl⟩

theorem write_encoded (answer : LocalAnswer) (w : LocalWorker T R) :
    Received (answer.WriteFails answer.encoded) w (w.write_encoded answer) := by
  unfold LocalWorker.write_encoded LocalAnswer.WriteFails
  split
  · rename_i hencoded
    exact of_settling (fun h => h.1 hencoded) w
  · rename_i hencoded
    exact of_iff (write_input_bytes answer answer.encoded w)
      ⟨fun h => ⟨hencoded, h⟩, And.right⟩

theorem encode_event (answer : LocalAnswer) (w : LocalWorker T R) :
    Received (answer.refused.isSome ∨ answer.WriteFails answer.encoded) w
      (w.encode_event answer) := by
  unfold LocalWorker.encode_event
  split
  · rename_i hrefused
    exact of_iff (write_encoded answer w) (by simp [hrefused])
  · rename_i error hrefused
    exact of_fail (Or.inl (by simp [hrefused])) error w

theorem resize_terminal (answer : LocalAnswer) {new_geometry : TerminalGeometry}
    {w : LocalWorker T R} (hne : new_geometry ≠ w.current_geometry) :
    Received (new_geometry = w.current_geometry ∨ (∃ error, answer.pty_resized = .error error) ∨
      ∃ error, (G.resize new_geometry w.emulator.terminal).2 = .error error) w
      (w.resize_terminal G answer new_geometry) := by
  unfold LocalWorker.resize_terminal
  split
  · rename_i error hpty
    exact of_fail (Or.inr (Or.inl ⟨error, hpty⟩)) _ w
  · rename_i hpty
    dsimp only
    split
    · rename_i error hresize
      have hcut : ∃ error, (G.resize new_geometry w.emulator.terminal).2 = .error error :=
        ⟨error, hresize⟩
      exact ⟨fun _ => ⟨Or.inr rfl, rfl⟩, fun h => absurd (Or.inr (Or.inr hcut)) h, rfl, rfl, rfl⟩
    · rename_i hresize
      refine ⟨fun h => absurd h (by simp [hne, hpty, hresize]), fun _ => ⟨Or.inl rfl, Or.inr ?_⟩,
        rfl, rfl, rfl⟩
      exact refresh_pending_vt_bytes none true _

theorem of_execute {commands : List SessionCommand} (h : Received cut (w.execute commands) w') :
    Received cut w w' := ⟨h.back, h.on, h.changed, h.output_rx, h.reader⟩

theorem apply_command (command : SessionCommand) (answer : LocalAnswer) (w : LocalWorker T R) :
    Received (command.CutsShort G answer w.current_geometry w.emulator.terminal) w
      (w.apply_command G command answer) := by
  unfold LocalWorker.apply_command
  split
  · exact of_execute (write_input_bytes answer _ _)
  · exact of_execute (write_encoded answer _)
  · exact of_execute (write_encoded answer _)
  · exact of_execute (encode_event answer _)
  · exact of_execute (encode_event answer _)
  · split
    · rename_i hsame
      exact ⟨fun _ => ⟨Or.inl rfl, rfl⟩, fun h => absurd (Or.inl hsame) h, rfl, rfl, rfl⟩
    · rename_i hne
      exact of_execute (resize_terminal (w := w.execute _) answer hne)
  · exact ⟨False.elim, fun _ => ⟨Or.inr ⟨_, rfl⟩, Or.inl rfl⟩, rfl, rfl, rfl⟩
  · exact ⟨False.elim, fun _ => ⟨Or.inr ⟨_, rfl⟩, Or.inl rfl⟩, rfl, rfl, rfl⟩
  · exact of_execute (of_settling id _)
  · exact of_execute (of_settling id _)
  · exact of_execute (of_settling id _)

theorem of_next {w w' : LocalWorker T R} {command : SessionCommand} {answer : LocalAnswer}
    (hnext : w.next_command = some command)
    (h : Received (command.CutsShort G answer w.current_geometry w.emulator.terminal) w w') :
    Received (w.ReceivesLast G answer) w w' := by
  unfold ReceivesLast
  rwa [hnext]

theorem receive (answer : LocalAnswer) (w : LocalWorker T R) :
    Received (w.ReceivesLast G answer) w (w.receive G answer) := by
  unfold LocalWorker.receive
  split
  · rename_i _ command hparked
    have h := apply_command (G := G) command answer { w with pending_command := none }
    exact of_next (by simp [next_command, hparked])
      ⟨h.back, h.on, h.changed, h.output_rx, h.reader⟩
  · rename_i command rest hparked hrx
    have h := apply_command (G := G) command answer { w with command_rx := rest }
    exact of_next (by simp [next_command, hparked, hrx])
      ⟨h.back, h.on, h.changed, h.output_rx, h.reader⟩
  · rename_i hparked hrx
    have hlast : w.ReceivesLast G answer ↔ w.closed = true := by
      simp [ReceivesLast, next_command, hparked, hrx]
    refine of_iff ?_ hlast.symm
    cases hclosed : w.closed with
    | true => exact ⟨fun _ => ⟨Or.inr rfl, rfl⟩, fun h => absurd rfl h, rfl, rfl, rfl⟩
    | false => exact of_settling (by simp) w

end Received

variable {w : LocalWorker T R}

/-- A step that neither takes output nor ends the iteration. -/
theorem Unpublished.of_eq {w' : LocalWorker T R} (h : Unpublished w)
    (hpending : w'.emulator.pending_vt_bytes = w.emulator.pending_vt_bytes)
    (hchanged : w'.changed = w.changed) (hstage : w'.stage = w.stage)
    (hchunks : ∀ bytes ∈ w'.output_rx, bytes ≠ []) (hchunk : ∀ bytes ∈ w'.reader, bytes ≠ []) :
    Unpublished w' where
  between := by
    rw [hpending, hstage]
    exact h.between
  unchanged := by
    rw [hpending, hstage, hchanged]
    exact h.unchanged
  changed := by
    rw [hpending, hstage, hchanged]
    exact h.changed
  chunks := hchunks
  chunk := hchunk

/-- The receive keeps the account unless it is cut short with output unpublished. -/
theorem receive_published (h : Unpublished w) (hstage : w.stage = .receiving)
    (answer : LocalAnswer) :
    (Published (w.receive G answer) ↔ (w.ReceivesLast G answer → w.changed = false)) ∧
      ((w.ReceivesLast G answer → w.changed = false) → Unpublished (w.receive G answer)) := by
  have hr := Received.receive (G := G) answer w
  have hzero (hf : w.changed = false) : w.emulator.pending_vt_bytes = 0 :=
    h.unchanged hf (by simp [hstage])
  have hchunks : ∀ bytes ∈ (w.receive G answer).output_rx, bytes ≠ [] := by
    rw [hr.output_rx]
    exact h.chunks
  have hchunk : ∀ bytes ∈ (w.receive G answer).reader, bytes ≠ [] := by
    rw [hr.reader]
    exact h.chunk
  by_cases hlast : w.ReceivesLast G answer
  · obtain ⟨hback, hpending⟩ := hr.back hlast
    have hpublished : Published (w.receive G answer) ↔ w.changed = false := by
      unfold Published
      rw [hpending]
      constructor
      · intro hp
        by_contra hne
        have hpos := h.changed (by simpa using hne) (Or.inr hstage)
        have hz := hp hback
        omega
      · exact fun hf _ => hzero hf
    refine ⟨by rw [hpublished]; exact ⟨fun hf _ => hf, fun hf => hf hlast⟩, fun hf => ?_⟩
    have hz := hzero (hf hlast)
    refine ⟨fun _ => hpending.trans hz, fun _ _ => hpending.trans hz, ?_, hchunks, hchunk⟩
    intro hc
    rw [hr.changed, hf hlast] at hc
    cases hc
  · obtain ⟨hon, hpending⟩ := hr.on hlast
    have hstages : (w.receive G answer).stage ≠ .start ∧ (w.receive G answer).stage ≠ .ended ∧
        (w.receive G answer).stage ≠ .polling ∧ (w.receive G answer).stage ≠ .draining ∧
        (w.receive G answer).stage ≠ .receiving := by
      rcases hon with hs | ⟨drained, hs⟩ <;> simp [hs]
    obtain ⟨hstart, hended, hpolling, hdraining, hreceiving⟩ := hstages
    refine ⟨⟨fun _ hl => absurd hl hlast, fun _ hs => ?_⟩, fun _ => ⟨?_, ?_, ?_, hchunks, hchunk⟩⟩
    · rcases hs with hs | hs
      · exact absurd hs hstart
      · exact absurd hs hended
    · intro hs
      rcases hs with hs | hs | hs
      · exact absurd hs hstart
      · exact absurd hs hpolling
      · exact absurd hs hended
    · intro hf _
      rw [hr.changed] at hf
      rcases hpending with hp | hp
      · exact hp.trans (hzero hf)
      · exact hp
    · intro _ hs
      rcases hs with hs | hs
      · exact absurd hs hdraining
      · exact absurd hs hreceiving

theorem Unpublished.published (h : Unpublished w) : Published w := by
  intro hs
  rcases hs with hs | hs
  · exact h.between (Or.inl hs)
  · exact h.between (Or.inr (Or.inr hs))

/-- After a refresh nothing is unpublished. -/
theorem Unpublished.of_zero (hpending : w.emulator.pending_vt_bytes = 0)
    (hstage : w.stage ≠ .draining ∧ w.stage ≠ .receiving ∨ w.changed = false)
    (hchunks : ∀ bytes ∈ w.output_rx, bytes ≠ []) (hchunk : ∀ bytes ∈ w.reader, bytes ≠ []) :
    Unpublished w where
  between _ := hpending
  unchanged _ _ := hpending
  changed := by
    intro hc hs
    rcases hstage with ⟨hd, hr⟩ | hf
    · rcases hs with hs | hs
      · exact absurd hs hd
      · exact absurd hs hr
    · rw [hf] at hc
      cases hc
  chunks := hchunks
  chunk := hchunk

theorem drain_next_unpublished (h : Unpublished w) {drained : List SessionCommand}
    (hstage : w.stage = .batching drained) : Unpublished (w.drain_next G drained) := by
  have hzero (v : LocalWorker T R) : (v.scroll_batch G drained).emulator.pending_vt_bytes = 0 :=
    refresh_pending_vt_bytes none false _
  unfold drain_next
  split
  · rename_i command rest hrx
    split
    · exact ⟨by simp, fun hf _ => h.unchanged hf (by simp [hstage]), by simp, h.chunks, h.chunk⟩
    · exact .of_zero (hzero _) (Or.inl (by simp)) h.chunks h.chunk
  · refine .of_zero (hzero _) (Or.inl ?_) h.chunks h.chunk
    cases w.closed <;> simp

theorem step_unpublished (h : Unpublished w) (hstage : w.stage ≠ .receiving)
    (answer : LocalAnswer) : Unpublished (w.step G answer) := by
  unfold step
  split
  · rename_i hs
    exact .of_zero (h.between (Or.inl hs)) (Or.inr rfl) h.chunks h.chunk
  · rename_i hs
    split
    · exact ⟨by simp, fun hf _ => h.unchanged hf (by simp [hs]),
        fun hc _ => h.changed hc (Or.inl hs), h.chunks, h.chunk⟩
    · rename_i bytes rest hrx
      have hchunks := h.chunks
      rw [hrx] at hchunks
      have hlength : 0 < bytes.length :=
        List.length_pos_of_ne_nil (hchunks bytes List.mem_cons_self)
      refine ⟨?_, nofun, fun _ _ => Nat.lt_of_lt_of_le hlength (Nat.le_add_left _ _),
        fun chunk hc => hchunks chunk (List.mem_cons_of_mem _ hc), h.chunk⟩
      cases answer.deadline_passed <;> simp
  · rename_i hs
    exact absurd hs hstage
  · rename_i drained hs
    exact drain_next_unpublished h hs
  · rename_i hs
    split
    · have hzero : (if w.changed then w.refresh G none false else w).emulator.pending_vt_bytes =
          0 := by
        split
        · exact refresh_pending_vt_bytes none false w.emulator
        · rename_i hc
          exact h.unchanged (by simpa using hc) (by simp [hs])
      refine .of_zero hzero (Or.inl (by simp)) ?_ ?_
      · cases w.changed <;> exact h.chunks
      · cases w.changed <;> exact h.chunk
    · rename_i bytes rest hrx
      have hchunks := h.chunks
      rw [hrx] at hchunks
      exact ⟨by simp [write_output, record, hs], nofun, by simp [write_output, record, hs],
        fun chunk hc => hchunks chunk (List.mem_cons_of_mem _ hc), h.chunk⟩
  · rename_i hs
    have hzero := h.between (Or.inr (Or.inl hs))
    split
    · exact .of_zero hzero (Or.inl (by simp [fail])) h.chunks h.chunk
    · exact .of_zero hzero (Or.inl (by simp)) h.chunks h.chunk
    · exact .of_zero hzero (Or.inl (by simp)) h.chunks h.chunk
  · rename_i status hs
    split
    · exact .of_zero (refresh_pending_vt_bytes (some status) true w.emulator) (Or.inl (by simp))
        h.chunks h.chunk
    · rename_i bytes rest hrx
      have hchunks := h.chunks
      rw [hrx] at hchunks
      exact ⟨by simp [write_output, record, hs], fun _ hne => absurd hs (hne status),
        by simp [write_output, record, hs],
        fun chunk hc => hchunks chunk (List.mem_cons_of_mem _ hc), h.chunk⟩
  · exact h

/-- Outside the loop nothing is written or published, and the reader sends no empty chunk. -/
theorem turn_aside_unpublished (h : Unpublished w) {t : LocalTurn}
    (ht : ∀ answer, t ≠ .worker answer) : Unpublished (w.turn G t) := by
  cases t with
  | worker answer => exact absurd rfl (ht answer)
  | arrive command =>
    unfold turn
    dsimp only
    split
    · exact h
    · exact h.of_eq rfl rfl rfl h.chunks h.chunk
  | hangUp => exact h.of_eq rfl rfl rfl h.chunks h.chunk
  | childWrites bytes =>
    unfold turn
    dsimp only
    split
    · exact h
    · exact h.of_eq rfl rfl rfl h.chunks h.chunk
  | childExits status =>
    unfold turn
    dsimp only
    split
    · exact h
    · exact h.of_eq rfl rfl rfl h.chunks h.chunk
  | readerReads read =>
    unfold turn
    dsimp only
    split
    · exact h
    · rename_i hread
      refine h.of_eq rfl rfl rfl h.chunks ?_
      simp only [Bool.or_eq_true, decide_eq_true_eq, not_or] at hread
      intro bytes hbytes
      cases hbytes
      intro hempty
      rcases List.take_eq_nil_iff.mp hempty with hzero | hnil
      · exact hread.1.1.2 hzero
      · rw [hnil, List.length_nil] at hread
        omega
  | readerSends =>
    unfold turn
    dsimp only
    split
    · exact h
    · rename_i bytes hreader
      refine h.of_eq rfl rfl rfl ?_ (by simp)
      intro chunk hchunk
      rcases List.mem_append.mp hchunk with hc | hc
      · exact h.chunks chunk hc
      · rw [List.mem_singleton.mp hc]
        exact h.chunk bytes hreader

theorem turn_published (h : Unpublished w) (t : LocalTurn) :
    (Published (w.turn G t) ↔ (w.CutShort G t → w.changed = false)) ∧
      ((w.CutShort G t → w.changed = false) → Unpublished (w.turn G t)) := by
  have hall (hcut : ¬w.CutShort G t) (hu : Unpublished (w.turn G t)) :
      (Published (w.turn G t) ↔ (w.CutShort G t → w.changed = false)) ∧
        ((w.CutShort G t → w.changed = false) → Unpublished (w.turn G t)) :=
    ⟨⟨fun _ hc => absurd hc hcut, fun _ => hu.published⟩, fun _ => hu⟩
  by_cases hworker : ∃ answer, t = .worker answer
  · obtain ⟨answer, rfl⟩ := hworker
    by_cases hstage : w.stage = .receiving
    · have hreceive := receive_published (G := G) h hstage answer
      have hturn : w.turn G (.worker answer) = w.receive G answer := by
        unfold turn step
        simp only [hstage]
      have hcut : w.CutShort G (.worker answer) ↔ w.ReceivesLast G answer := and_iff_right hstage
      rw [hturn, hcut]
      exact hreceive
    · exact hall (fun hc => hstage hc.1) (step_unpublished h hstage answer)
  · have haside (answer : LocalAnswer) : t ≠ .worker answer := fun he => hworker ⟨answer, he⟩
    refine hall ?_ (turn_aside_unpublished h haside)
    cases t <;> first | exact id | exact absurd rfl (haside _)

theorem launch_unpublished {state : SharedSessionState} (h : launch G state = .ok w) :
    Unpublished w := by
  obtain ⟨emulator, _, h⟩ := except_bind_ok.mp h
  cases h
  have hzero := refresh_pending_vt_bytes (G := G) none true emulator
  exact .of_zero hzero (Or.inr rfl) (by simp [opened, refresh]) (by simp [opened, refresh])

end LocalWorker

/-- In every state of a run the loop has published what it wrote, exactly if every receive that
leaves its iteration early finds nothing written since the iteration began. -/
theorem published_iff {state : SharedSessionState} {w : LocalWorker T R}
    (h : LocalWorker.launch G state = .ok w) (turns : List LocalTurn) :
    Always (fun v t => some (v.turn G t)) LocalWorker.Published w turns ↔
      EveryStep (fun v t => some (v.turn G t))
        (fun v t => v.CutShort G t → v.changed = false) w turns := by
  refine always_iff (K := LocalWorker.Unpublished) (fun v hv => hv.published) ?_
    (LocalWorker.launch_unpublished h) turns
  intro v t v' hv ht
  cases ht
  exact LocalWorker.turn_published hv t

end LocalSession

namespace Sample

/-- A local session at the start of its loop. -/
def shell : LocalWorker Viewport Unit :=
  LocalWorker.opened ghostty fresh
    (SharedSessionState.new "Launching local shell..." TerminalGeometry.default)

/-- Calls that all go through. -/
def obliging : LocalAnswer where
  deadline_passed := false
  encoded := []
  refused := none
  written := .ok ()
  pty_resized := .ok ()
  polled := .ok ()

/-- The child prints a letter, which waits in the channel. -/
def printed : List LocalTurn := [.childWrites [104], .readerReads 1, .readerSends]

/-- The letter is written before a resize to the geometry there is. -/
def resized : List LocalTurn :=
  printed ++ .arrive (.resize TerminalGeometry.default) ::
    List.replicate 4 (.worker obliging)

end Sample

/-- The letter is drained, and published before the next iteration begins. -/
theorem published_printed :
    Always (fun v t => some (LocalWorker.turn Sample.ghostty v t)) LocalWorker.Published
      Sample.shell (Sample.printed ++ List.replicate 6 (.worker Sample.obliging)) := by
  have h : LocalWorker.launch Sample.ghostty
      (SharedSessionState.new "Launching local shell..." TerminalGeometry.default) =
        .ok Sample.shell := rfl
  refine (published_iff Sample.ghostty h _).mpr ?_
  rintro _ ⟨⟩
  refine ⟨False.elim, ?_⟩
  rintro _ ⟨⟩
  refine ⟨False.elim, ?_⟩
  rintro _ ⟨⟩
  refine ⟨False.elim, ?_⟩
  rintro _ ⟨⟩
  refine ⟨fun hcut => absurd hcut.1 (by decide), ?_⟩
  rintro _ ⟨⟩
  refine ⟨fun hcut => absurd hcut.1 (by decide), ?_⟩
  rintro _ ⟨⟩
  refine ⟨fun hcut => absurd hcut.1 (by decide), ?_⟩
  rintro _ ⟨⟩
  refine ⟨fun hcut => absurd hcut.2 Bool.false_ne_true, ?_⟩
  rintro _ ⟨⟩
  refine ⟨fun hcut => absurd hcut.1 (by decide), ?_⟩
  rintro _ ⟨⟩
  exact ⟨fun hcut => absurd hcut.1 (by decide), trivial⟩

/-- The resize starts the next iteration, and the letter stays unpublished. -/
theorem resize_leaves_unpublished :
    ¬Always (fun v t => some (LocalWorker.turn Sample.ghostty v t)) LocalWorker.Published
      Sample.shell Sample.resized := by
  intro h
  rw [← List.append_nil Sample.resized] at h
  have hend := always_run h rfl
  exact absurd (hend.start (Or.inl rfl)) (by decide)

end Seance.Terminal
