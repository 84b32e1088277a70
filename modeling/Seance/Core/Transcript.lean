import Seance.Auth.Sample
import Seance.Config.Validation
import Seance.Core.SessionLogs
import Seance.Lib.Base64
import Seance.Lib.Json
import Seance.Terminal.LocalSession
import Seance.Terminal.Utf8

namespace Seance.Core
open Lib
open Config (AppConfig)
open Terminal (TranscriptStream utf8)

structure TranscriptEvent extends Terminal.TranscriptEvent where
  timestamp : Int
  deriving DecidableEq

def TRANSCRIPT_CHANNEL_CAPACITY : Nat := 512

/-- `u64::MAX` -/
def U64_MAX : Nat := 2 ^ 64 - 1

/-- One `write_all` to the events file. -/
inductive TranscriptLine
  | event (e : TranscriptEvent)
  | truncation (now : Int)
  deriving DecidableEq

def stream_name : TranscriptStream → String
  | .input => "input"
  | .output => "output"

def TranscriptLine.json : TranscriptLine → Json Nat
  | .event e =>
    .obj [("ts", .num (system_time_seconds e.timestamp)), ("stream", .str (stream_name e.stream)),
      ("payload_base64", .str (String.ofList (Base64.btoa e.bytes)))]
  | .truncation now =>
    .obj [("ts", .num (system_time_seconds now)), ("stream", .str "meta"),
      ("payload_base64", .str ""), ("truncated", .bool true)]

def TranscriptLine.is_event : TranscriptLine → Bool
  | .event _ => true
  | .truncation _ => false

/-- Where the writer thread stands in `write_transcript_events`. -/
inductive TranscriptWriter
  | starting
  | receiving
  | holding (e : TranscriptEvent)
  | stopped
  deriving DecidableEq

/-- A sink with its channel, its writer and its file. What has been recorded and accepted is kept
beside it. -/
structure Transcript where
  sink : Bool
  channel : List TranscriptEvent
  /-- calls that have found no room and have still to count their event -/
  refused : Nat
  dropped_events : Nat
  writer : TranscriptWriter
  bytes_written : Nat
  truncated : Bool
  file : List TranscriptLine
  recorded : List TranscriptEvent
  accepted : List TranscriptEvent
  deriving DecidableEq

inductive TranscriptAct
  | record (e : TranscriptEvent)
  | count_dropped
  | drop_sink
  | create
  | recv
  | append (now : Int)
  deriving DecidableEq

section Encoding

variable (num : Numerals Nat)

/-- The bytes of a line with the newline behind it. -/
def TranscriptLine.bytes (line : TranscriptLine) : List UInt8 :=
  utf8 (line.json.print num) ++ [0x0a]

def event_len (e : TranscriptEvent) : Nat := ((TranscriptLine.event e).bytes num).length

/-- The length of the encoded events, one line each. -/
def event_bytes (events : List TranscriptEvent) : Nat := (events.map (event_len num)).sum

end Encoding

namespace Transcript

def new : Transcript := ⟨true, [], 0, 0, .starting, 0, false, [], [], []⟩

section Steps

variable (num : Numerals Nat) (max_bytes_per_session : Nat)

/-- `try_send` finds no room in a full channel, and no receiver once the writer has stopped. -/
def record (t : Transcript) (e : TranscriptEvent) : Transcript :=
  if t.writer = .stopped || TRANSCRIPT_CHANNEL_CAPACITY ≤ t.channel.length then
    { t with recorded := t.recorded ++ [e], refused := t.refused + 1 }
  else
    { t with
      recorded := t.recorded ++ [e]
      channel := t.channel ++ [e]
      accepted := t.accepted ++ [e] }

/-- What the writer does with an event it has received. -/
def append (t : Transcript) (e : TranscriptEvent) (now : Int) : Transcript :=
  if t.truncated then { t with writer := .receiving }
  else
    let next_total := min (t.bytes_written + event_len num e) U64_MAX
    if max_bytes_per_session < next_total then
      { t with
        writer := .receiving
        truncated := true
        dropped_events := t.dropped_events + 1
        file := t.file ++ [.truncation now] }
    else
      { t with
        writer := .receiving
        bytes_written := next_total
        file := t.file ++ [.event e] }

/-- One step of a caller of the sink or of the writer; none where it has to wait. -/
def step (t : Transcript) : TranscriptAct → Option Transcript
  | .record e => if t.sink then some (t.record e) else none
  | .count_dropped =>
    if t.refused = 0 then none
    else some { t with refused := t.refused - 1, dropped_events := t.dropped_events + 1 }
  | .drop_sink => if t.sink && t.refused = 0 then some { t with sink := false } else none
  | .create =>
    match t.writer with
    | .starting => some { t with writer := .receiving }
    | _ => none
  | .recv =>
    match t.writer, t.channel with
    | .receiving, e :: rest => some { t with writer := .holding e, channel := rest }
    | .receiving, [] => if t.sink then none else some { t with writer := .stopped }
    | _, _ => none
  | .append now =>
    match t.writer with
    | .holding e => some (t.append num max_bytes_per_session e now)
    | _ => none

def run (acts : List TranscriptAct) : Option Transcript :=
  acts.foldlM (step num max_bytes_per_session) new

end Steps

/-- The sink is dropped and the writer has finished. -/
def Finished (t : Transcript) : Prop := t.sink = false ∧ t.writer = .stopped

instance (t : Transcript) : Decidable t.Finished := inferInstanceAs (Decidable (_ ∧ _))

/-- The accounts of a finished transcript. -/
structure Accounted (num : Numerals Nat) (max_bytes_per_session : Nat) (t : Transcript) : Prop where
  count : t.file.countP TranscriptLine.is_event + t.dropped_events = t.recorded.length
  lines : ∃ k markers, markers.length ≤ 1 ∧ (∀ line ∈ markers, line.is_event = false) ∧
    t.file = (t.accepted.take k).map .event ++ markers ∧
    event_bytes num (t.accepted.take k) ≤ max_bytes_per_session

end Transcript

section Lines

/-- No escape of a character is a newline. -/
theorem newline_not_mem_escapeChar (c : Char) : '\n' ∉ Json.escapeChar c := by
  unfold Json.escapeChar
  split
  · rename_i e he
    have hletter : ∀ p ∈ Json.escapes, p.1 ≠ '\n' := by decide
    obtain ⟨pair, hpair, rfl⟩ := Option.map_eq_some_iff.mp he
    simp [(hletter pair (List.mem_of_find?_eq_some hpair)).symm]
  · split
    · have hdigit : ∀ n : Fin 16, Nat.digitChar n ≠ '\n' := by decide
      rename_i hlow
      have hhigh := hdigit ⟨c.toNat / 16, by omega⟩
      have hlast := hdigit ⟨c.toNat % 16, by omega⟩
      simp [hhigh.symm, hlast.symm]
    · rename_i hlow
      rw [List.mem_singleton]
      rintro rfl
      exact hlow (by decide)

theorem newline_not_mem_quoteRest (cs : List Char) : '\n' ∉ Json.quoteRest cs := by
  unfold Json.quoteRest
  rw [List.mem_append, List.mem_flatMap, List.mem_singleton]
  rintro (⟨c, -, hc⟩ | hquote)
  · exact newline_not_mem_escapeChar c hc
  · revert hquote
    decide

theorem newline_of_byte {cs : List Char} (h : (0x0a : UInt8) ∈ utf8 cs) : '\n' ∈ cs := by
  unfold utf8 at h
  obtain ⟨c, hc, hbyte⟩ := List.mem_flatMap.mp h
  by_cases hascii : c.val < 0x80
  · rw [Terminal.utf8_ascii hascii, List.mem_singleton] at hbyte
    have hval : c.val = 0x0a := by
      have hnat := congrArg UInt8.toNat hbyte
      rw [UInt32.lt_iff_toNat_lt] at hascii
      simp only [UInt32.toNat_toUInt8] at hnat
      apply UInt32.toNat_inj.mp
      have hsmall : c.val.toNat < 128 := hascii
      rw [Nat.mod_eq_of_lt (by omega)] at hnat
      exact hnat.symm
    have hchar : c = '\n' := Char.ext hval
    rwa [← hchar]
  · exact absurd (Terminal.utf8_high hascii _ hbyte) (by decide)

variable (num : Numerals Nat)

theorem newline_not_mem (line : TranscriptLine) : (0x0a : UInt8) ∉ utf8 (line.json.print num) := by
  have hnum : ∀ n, '\n' ∉ num.render n := by
    intro n hmem
    have hchar := num.chars n _ hmem
    revert hchar
    decide
  intro h
  have hline := newline_of_byte h
  cases line with
  | event e =>
    simp [TranscriptLine.json, Json.print, Json.printMembers, newline_not_mem_quoteRest, hnum] at hline
  | truncation now =>
    simp [TranscriptLine.json, Json.print, Json.printMembers, newline_not_mem_quoteRest, hnum] at hline

/-- What has been written is as many lines of text. -/
theorem newlines_eq_length (file : List TranscriptLine) :
    (file.flatMap (TranscriptLine.bytes num)).count 0x0a = file.length := by
  induction file with
  | nil => rfl
  | cons line rest ih =>
    have hline : (line.bytes num).count 0x0a = 1 := by
      unfold TranscriptLine.bytes
      rw [List.count_append, List.count_eq_zero.mpr (newline_not_mem num line)]
      rfl
    rw [List.flatMap_cons, List.count_append, ih, hline, List.length_cons, Nat.add_comm]

theorem length_le_flatMap {α β : Type} {f : α → List β} (h : ∀ a, f a ≠ []) (l : List α) :
    l.length ≤ (l.flatMap f).length := by
  induction l with
  | nil => exact Nat.le_refl _
  | cons a rest ih =>
    have ha := List.length_pos_iff.mpr (h a)
    rw [List.flatMap_cons, List.length_append, List.length_cons]
    omega

/-- An event takes no fewer bytes than its payload. -/
theorem length_le_event_len (e : TranscriptEvent) : e.bytes.length ≤ event_len num e := by
  have hescape : ∀ c, Json.escapeChar c ≠ [] := by
    intro c
    unfold Json.escapeChar
    split
    · exact List.cons_ne_nil _ _
    · split <;> exact List.cons_ne_nil _ _
  have hutf8 : ∀ c, String.utf8EncodeChar c ≠ [] := by
    intro c hc
    have hlength := String.length_utf8EncodeChar c
    rw [hc] at hlength
    exact absurd hlength.symm (Nat.ne_of_gt (Char.utf8Size_pos c))
  have hdigits := Base64.length_le_digits e.bytes
  have hbtoa : (Base64.digits e.bytes).length ≤ (Base64.btoa e.bytes).length := by
    simp [Base64.btoa]
  have hquoted := length_le_flatMap hescape (Base64.btoa e.bytes)
  have hline : ((Base64.btoa e.bytes).flatMap Json.escapeChar).length ≤
      ((TranscriptLine.event e).json.print num).length := by
    simp only [TranscriptLine.json, Json.print, Json.printMembers, Json.quoteRest,
      String.toList_ofList, List.length_append, List.length_cons]
    omega
  have hbytes := length_le_flatMap hutf8 ((TranscriptLine.event e).json.print num)
  unfold event_len TranscriptLine.bytes utf8
  rw [List.length_append]
  omega

end Lines

namespace Transcript

variable {num : Numerals Nat} {max_bytes_per_session : Nat} {t t' : Transcript}

/-- The event in the writer's hands. -/
def held (t : Transcript) : List TranscriptEvent :=
  match t.writer with
  | .holding e => [e]
  | _ => []

/-- What has been written, and what has been received and lost. -/
structure Books (num : Numerals Nat) (max_bytes_per_session : Nat) (t : Transcript)
    (written lost : List TranscriptEvent) : Prop where
  accepted : t.accepted = written ++ lost ++ t.held ++ t.channel
  recorded : t.recorded.length + t.truncated.toNat = t.accepted.length + t.refused + t.dropped_events
  file : ∃ markers, t.file = written.map .event ++ markers ∧ markers.length = t.truncated.toNat ∧
    ∀ line ∈ markers, line.is_event = false
  bytes_written : t.bytes_written = event_bytes num written
  within : event_bytes num written ≤ max_bytes_per_session
  lost_nil : t.truncated = false → lost = []
  lost_cons : t.truncated = true → ∃ e rest, lost = e :: rest ∧
    max_bytes_per_session < event_bytes num (written ++ [e])

theorem Books.new (num : Numerals Nat) (max_bytes_per_session : Nat) :
    Books num max_bytes_per_session .new [] [] :=
  ⟨rfl, rfl, ⟨[], rfl, rfl, nofun⟩, rfl, Nat.zero_le _, fun _ => rfl, nofun⟩

section Steps

variable {written lost : List TranscriptEvent}

theorem Books.record (h : Books num max_bytes_per_session t written lost) (e : TranscriptEvent) :
    Books num max_bytes_per_session (t.record e) written lost := by
  have hrecorded := h.recorded
  unfold Transcript.record
  split
  · refine ⟨h.accepted, ?_, h.file, h.bytes_written, h.within, h.lost_nil, h.lost_cons⟩
    simp only [List.length_append, List.length_singleton]
    omega
  · refine ⟨?_, ?_, h.file, h.bytes_written, h.within, h.lost_nil, h.lost_cons⟩
    · change t.accepted ++ [e] = written ++ lost ++ t.held ++ (t.channel ++ [e])
      rw [h.accepted, List.append_assoc]
    · simp only [List.length_append, List.length_singleton]
      omega

theorem event_bytes_append (events more : List TranscriptEvent) :
    event_bytes num (events ++ more) = event_bytes num events + event_bytes num more := by
  unfold event_bytes
  rw [List.map_append, List.sum_append]

theorem event_bytes_concat (events : List TranscriptEvent) (e : TranscriptEvent) :
    event_bytes num (events ++ [e]) = event_bytes num events + event_len num e := by
  rw [event_bytes_append]
  rfl

theorem append_of_over (htruncated : t.truncated = false) {e : TranscriptEvent}
    (hover : max_bytes_per_session < min (t.bytes_written + event_len num e) U64_MAX) (now : Int) :
    t.append num max_bytes_per_session e now =
      { t with
        writer := .receiving
        truncated := true
        dropped_events := t.dropped_events + 1
        file := t.file ++ [.truncation now] } := by
  unfold Transcript.append
  dsimp only
  rw [if_neg (by simp [htruncated]), if_pos hover]

/-- The writer takes an event, loses it, or writes it. -/
theorem Books.append (h : Books num max_bytes_per_session t written lost)
    (hmax : max_bytes_per_session < U64_MAX) {e : TranscriptEvent} (hwriter : t.writer = .holding e)
    (now : Int) :
    ∃ written' lost', Books num max_bytes_per_session
      (t.append num max_bytes_per_session e now) written' lost' := by
  have hheld : t.held = [e] := by
    unfold held
    rw [hwriter]
  have haccepted := h.accepted
  rw [hheld] at haccepted
  have hbytes := h.bytes_written
  have hwithin := h.within
  obtain ⟨markers, hfile, hmarkers, htruncation⟩ := h.file
  unfold Transcript.append
  -- the sum is below the limit where it does not overrun it, so it does not saturate
  generalize U64_MAX = saturated at hmax ⊢
  split
  · rename_i htruncated
    obtain ⟨first, rest, rfl, hover⟩ := h.lost_cons htruncated
    refine ⟨written, first :: rest ++ [e], ?_, h.recorded, h.file, h.bytes_written, h.within, ?_,
      fun _ => ⟨first, rest ++ [e], rfl, hover⟩⟩
    · change t.accepted = written ++ (first :: rest ++ [e]) ++ [] ++ t.channel
      rw [haccepted, List.append_nil, List.append_assoc written]
    · intro hfalse
      rw [show t.truncated = false from hfalse] at htruncated
      cases htruncated
  · rename_i htruncated
    have htruncated : t.truncated = false := Bool.eq_false_iff.mpr htruncated
    obtain rfl := h.lost_nil htruncated
    have hrecorded := h.recorded
    rw [htruncated] at hmarkers hrecorded
    obtain rfl := List.length_eq_zero_iff.mp hmarkers
    rw [List.append_nil] at hfile haccepted
    dsimp only
    split
    · rename_i hover
      refine ⟨written, [e], ?_, ?_, ⟨[.truncation now], by rw [hfile], rfl, ?_⟩, hbytes, hwithin,
        nofun, fun _ => ⟨e, [], rfl, ?_⟩⟩
      · change t.accepted = written ++ [e] ++ [] ++ t.channel
        rw [haccepted, List.append_nil]
      · change t.recorded.length + 1 = t.accepted.length + t.refused + (t.dropped_events + 1)
        simp only [Bool.toNat_false] at hrecorded
        omega
      · simp [TranscriptLine.is_event]
      · rw [event_bytes_concat, ← hbytes]
        omega
    · rename_i hfits
      have htotal : min (t.bytes_written + event_len num e) saturated =
          event_bytes num (written ++ [e]) := by
        rw [event_bytes_concat, ← hbytes]
        omega
      refine ⟨written ++ [e], [], ?_, h.recorded, ⟨[], ?_, ?_, nofun⟩, htotal, ?_, fun _ => rfl, ?_⟩
      · change t.accepted = written ++ [e] ++ [] ++ [] ++ t.channel
        rw [haccepted, List.append_nil, List.append_nil]
      · change t.file ++ [.event e] = (written ++ [e]).map .event ++ []
        rw [hfile, List.map_append, List.append_nil, List.map_singleton]
      · change 0 = t.truncated.toNat
        rw [htruncated]
        rfl
      · rw [← htotal]
        omega
      · intro htrue
        rw [show t.truncated = true from htrue] at htruncated
        cases htruncated

/-- A writer that has stopped has emptied its channel, and a sink that has been dropped has counted
its events. -/
structure Settled (t : Transcript) : Prop where
  stopped : t.writer = .stopped → t.sink = false ∧ t.channel = []
  closed : t.sink = false → t.refused = 0

/-- What holds after any steps. -/
def Kept (num : Numerals Nat) (max_bytes_per_session : Nat) (t : Transcript) : Prop :=
  (∃ written lost, Books num max_bytes_per_session t written lost) ∧ t.Settled

theorem kept_step (hmax : max_bytes_per_session < U64_MAX) {act : TranscriptAct}
    (h : Kept num max_bytes_per_session t)
    (hstep : t.step num max_bytes_per_session act = some t') :
    Kept num max_bytes_per_session t' := by
  obtain ⟨⟨written, lost, hbooks⟩, hsettled⟩ := h
  cases act with
  | record e =>
    simp only [step, Option.ite_none_right_eq_some, Option.some.injEq] at hstep
    obtain ⟨hsink, rfl⟩ := hstep
    refine ⟨⟨written, lost, hbooks.record e⟩, ?_, ?_⟩
    all_goals
      unfold Transcript.record
      split
    · exact hsettled.stopped
    · intro hstopped
      rw [(hsettled.stopped hstopped).1] at hsink
      cases hsink
    · intro hclosed
      rw [show t.sink = false from hclosed] at hsink
      cases hsink
    · exact hsettled.closed
  | count_dropped =>
    simp only [step, Option.ite_none_left_eq_some, Option.some.injEq] at hstep
    obtain ⟨hrefused, rfl⟩ := hstep
    have hrecorded := hbooks.recorded
    refine ⟨⟨written, lost, hbooks.accepted, ?_, hbooks.file, hbooks.bytes_written, hbooks.within,
      hbooks.lost_nil, hbooks.lost_cons⟩, hsettled.stopped, ?_⟩
    · dsimp only
      omega
    · intro hclosed
      exact absurd (hsettled.closed hclosed) hrefused
  | drop_sink =>
    simp only [step, Option.ite_none_right_eq_some, Option.some.injEq, Bool.and_eq_true,
      decide_eq_true_eq] at hstep
    obtain ⟨⟨-, hrefused⟩, rfl⟩ := hstep
    refine ⟨⟨written, lost, hbooks.accepted, hbooks.recorded, hbooks.file, hbooks.bytes_written,
      hbooks.within, hbooks.lost_nil, hbooks.lost_cons⟩, ?_, fun _ => hrefused⟩
    exact fun hstopped => ⟨rfl, (hsettled.stopped hstopped).2⟩
  | create =>
    dsimp only [step] at hstep
    split at hstep
    · rename_i hwriter
      cases hstep
      have hheld : t.held = [] := by
        unfold held
        rw [hwriter]
      refine ⟨⟨written, lost, ?_, hbooks.recorded, hbooks.file, hbooks.bytes_written, hbooks.within,
        hbooks.lost_nil, hbooks.lost_cons⟩, nofun, hsettled.closed⟩
      exact hbooks.accepted.trans (by rw [hheld]; rfl)
    · cases hstep
  | recv =>
    dsimp only [step] at hstep
    split at hstep
    · rename_i e rest hwriter hchannel
      cases hstep
      have hheld : t.held = [] := by
        unfold held
        rw [hwriter]
      refine ⟨⟨written, lost, ?_, hbooks.recorded, hbooks.file, hbooks.bytes_written, hbooks.within,
        hbooks.lost_nil, hbooks.lost_cons⟩, nofun, hsettled.closed⟩
      change t.accepted = written ++ lost ++ [e] ++ rest
      rw [hbooks.accepted, hheld, hchannel, List.append_nil, List.append_assoc _ [e] rest]
      rfl
    · rename_i hwriter hchannel
      split at hstep
      · cases hstep
      · rename_i hsink
        cases hstep
        have hheld : t.held = [] := by
          unfold held
          rw [hwriter]
        refine ⟨⟨written, lost, ?_, hbooks.recorded, hbooks.file, hbooks.bytes_written,
          hbooks.within, hbooks.lost_nil, hbooks.lost_cons⟩,
          fun _ => ⟨Bool.eq_false_iff.mpr hsink, hchannel⟩, hsettled.closed⟩
        exact hbooks.accepted.trans (by rw [hheld]; rfl)
    · cases hstep
  | append now =>
    dsimp only [step] at hstep
    split at hstep
    · rename_i e hwriter
      cases hstep
      refine ⟨hbooks.append hmax hwriter now, ?_, ?_⟩
      all_goals
        unfold Transcript.append
        split
      · nofun
      · dsimp only
        split <;> nofun
      · exact hsettled.closed
      · dsimp only
        split <;> exact hsettled.closed
    · cases hstep

theorem kept_run (hmax : max_bytes_per_session < U64_MAX) {acts : List TranscriptAct}
    (hrun : run num max_bytes_per_session acts = some t) : Kept num max_bytes_per_session t := by
  suffices h : ∀ {s : Transcript}, Kept num max_bytes_per_session s →
      acts.foldlM (step num max_bytes_per_session) s = some t → Kept num max_bytes_per_session t from
    h ⟨⟨[], [], .new num max_bytes_per_session⟩, nofun, nofun⟩ hrun
  clear hrun
  induction acts with
  | nil =>
    rintro s h ⟨⟩
    exact h
  | cons act rest ih =>
    intro s h hrun
    rw [List.foldlM_cons, Option.bind_eq_bind, Option.bind_eq_some_iff] at hrun
    obtain ⟨u, hstep, hrun⟩ := hrun
    exact ih (kept_step hmax h hstep) hrun

/-- In the end every accepted event has been written or lost. -/
theorem Books.finished (h : Books num max_bytes_per_session t written lost) (hsettled : t.Settled)
    (hfinished : t.Finished) :
    t.accepted = written ++ lost ∧
      t.recorded.length + t.truncated.toNat = t.accepted.length + t.dropped_events := by
  have hheld : t.held = [] := by
    unfold held
    rw [hfinished.2]
  have haccepted := h.accepted
  have hrecorded := h.recorded
  rw [hheld, (hsettled.stopped hfinished.2).2, List.append_nil, List.append_nil] at haccepted
  rw [hsettled.closed hfinished.1] at hrecorded
  exact ⟨haccepted, hrecorded⟩

theorem Books.count_events (h : Books num max_bytes_per_session t written lost) :
    t.file.countP TranscriptLine.is_event = written.length := by
  obtain ⟨markers, hfile, -, hmarkers⟩ := h.file
  have hnone : markers.countP TranscriptLine.is_event = 0 := by
    apply List.countP_eq_zero.mpr
    intro line hline
    rw [hmarkers line hline]
    exact Bool.false_ne_true
  rw [hfile, List.countP_append, List.countP_map, hnone, Nat.add_zero]
  exact List.countP_eq_length.mpr fun _ _ => rfl

/-- One event is lost for a marker at most where all but the last fit, and only there. -/
theorem Books.lost_length_iff (h : Books num max_bytes_per_session t written lost) :
    lost.length = t.truncated.toNat ↔
      event_bytes num (written ++ lost).dropLast ≤ max_bytes_per_session := by
  have hwithin := h.within
  cases htruncated : t.truncated with
  | false =>
    obtain rfl := h.lost_nil htruncated
    rw [List.append_nil]
    refine iff_of_true rfl (Nat.le_trans ?_ hwithin)
    rcases List.eq_nil_or_concat written with rfl | ⟨init, e, rfl⟩
    · exact Nat.le_refl _
    · rw [List.concat_eq_append, List.dropLast_concat, event_bytes_concat]
      exact Nat.le_add_right _ _
  | true =>
    obtain ⟨e, rest, rfl, hover⟩ := h.lost_cons htruncated
    cases rest with
    | nil =>
      rw [List.dropLast_concat]
      exact iff_of_true rfl hwithin
    | cons next rest =>
      refine iff_of_false (by simp) (Nat.not_le.mpr (Nat.lt_of_lt_of_le hover ?_))
      rw [List.dropLast_append_of_ne_nil (List.cons_ne_nil _ _), List.dropLast_cons_cons,
        event_bytes_append, event_bytes_append]
      unfold event_bytes
      simp

theorem Books.accounted_iff (h : Books num max_bytes_per_session t written lost)
    (hsettled : t.Settled) (hfinished : t.Finished) :
    t.Accounted num max_bytes_per_session ↔
      event_bytes num t.accepted.dropLast ≤ max_bytes_per_session := by
  obtain ⟨haccepted, hrecorded⟩ := h.finished hsettled hfinished
  rw [haccepted, ← h.lost_length_iff]
  rw [haccepted, List.length_append] at hrecorded
  constructor
  · intro haccounted
    have hcount := haccounted.count
    rw [h.count_events] at hcount
    omega
  · intro hlost
    refine ⟨?_, written.length, ?_⟩
    · rw [h.count_events]
      omega
    · obtain ⟨markers, hfile, hmarkers, htruncation⟩ := h.file
      have htake : t.accepted.take written.length = written := by
        rw [haccepted, List.take_left]
      rw [htake]
      exact ⟨markers, hmarkers.trans_le (Bool.toNat_le _), htruncation, hfile, h.within⟩

end Steps

/-- The limit of a valid configuration is far from what a byte count can hold. -/
theorem max_bytes_lt {platform : Config.Platform} {config : AppConfig}
    (h : config.validate_settings platform = .ok ()) :
    config.logging.session_transcript_max_bytes_per_session.toNat < U64_MAX := by
  simp only [AppConfig.validate_settings, except_unit_bind_ok, Config.ensure_ok,
    Bool.and_eq_true, decide_eq_true_eq] at h
  have hmax := h.2.2.2.2.2.2.1.2
  exact Nat.lt_of_le_of_lt hmax (by decide)

/-- However the calls of the sink and the writer interleave: once the sink is dropped and the writer
has finished, the accounts of the transcript are right exactly if all events that the channel took
but the last fit into the file together. -/
theorem transcript_accounted_iff (num : Numerals Nat) {platform : Config.Platform}
    {config : AppConfig} (hconfig : config.validate_settings platform = .ok ())
    {acts : List TranscriptAct}
    (hrun : run num config.logging.session_transcript_max_bytes_per_session.toNat acts = some t)
    (hfinished : t.Finished) :
    t.Accounted num config.logging.session_transcript_max_bytes_per_session.toNat ↔
      event_bytes num t.accepted.dropLast ≤
        config.logging.session_transcript_max_bytes_per_session.toNat := by
  obtain ⟨⟨written, lost, hbooks⟩, hsettled⟩ := kept_run (max_bytes_lt hconfig) hrun
  exact hbooks.accounted_iff hsettled hfinished

section Sample

/-- The smallest limit that is valid. -/
def smallest_logs : AppConfig := { AppConfig.default with logging := ⟨true, 7, 1024⟩ }

def plain : Config.Platform := ⟨false, id⟩

def output (bytes : List UInt8) : TranscriptEvent := ⟨⟨.output, bytes⟩, 0⟩

/-- The events are all in the channel before the writer gets to them. -/
def taken (events : List TranscriptEvent) : List TranscriptAct :=
  .create :: events.map .record ++ events.flatMap (fun _ => [.recv, .append 0]) ++
    [.drop_sink, .recv]

/-- Larger than the file may get. -/
def large : TranscriptEvent := output (List.replicate 1100 65)

def begun : List TranscriptAct := [.create, .record large, .record (output [66]), .recv]

def left : List TranscriptAct := [.recv, .append 0, .drop_sink, .recv]

/-- Two events, the first of them in the writer's hands. -/
def overrunning : Transcript where
  sink := true
  channel := [output [66]]
  refused := 0
  dropped_events := 0
  writer := .holding large
  bytes_written := 0
  truncated := false
  file := []
  recorded := [large, output [66]]
  accepted := [large, output [66]]

/-- The transcript of two events of which the first fills the file up. -/
def overrun : Transcript where
  sink := false
  channel := []
  refused := 0
  dropped_events := 1
  writer := .stopped
  bytes_written := 0
  truncated := true
  file := [.truncation 0]
  recorded := [large, output [66]]
  accepted := [large, output [66]]

def greeting : Transcript where
  sink := false
  channel := []
  refused := 0
  dropped_events := 0
  writer := .stopped
  bytes_written := 51
  truncated := false
  file := [.event (output [72, 105])]
  recorded := [output [72, 105]]
  accepted := [output [72, 105]]

theorem greeting_accounted :
    greeting.Accounted Auth.Sample.decimals
      smallest_logs.logging.session_transcript_max_bytes_per_session.toNat := by
  have hvalid : smallest_logs.validate_settings plain = .ok () := rfl
  have hrun : run Auth.Sample.decimals
      smallest_logs.logging.session_transcript_max_bytes_per_session.toNat
      (taken [output [72, 105]]) = some greeting := by decide +kernel
  exact (transcript_accounted_iff Auth.Sample.decimals hvalid hrun (by decide)).mpr
    (by decide +kernel)

/-- The second event is received after the file has been truncated, and counted nowhere. -/
theorem lost_uncounted :
    run Auth.Sample.decimals smallest_logs.logging.session_transcript_max_bytes_per_session.toNat
      (taken [large, output [66]]) = some overrun ∧
    overrun.Finished ∧
    ¬ overrun.Accounted Auth.Sample.decimals
      smallest_logs.logging.session_transcript_max_bytes_per_session.toNat := by
  have hover : 1024 < min (overrunning.bytes_written + event_len Auth.Sample.decimals large)
      U64_MAX := by
    have hlength := length_le_event_len Auth.Sample.decimals large
    have hbytes : large.bytes.length = 1100 := List.length_replicate
    have hmax : 1024 < U64_MAX := by decide
    rw [Nat.lt_min]
    refine ⟨Nat.lt_of_lt_of_le (by rw [hbytes]; decide) (Nat.le_trans hlength ?_), hmax⟩
    exact Nat.le_add_left _ _
  refine ⟨?_, by decide, fun h => ?_⟩
  · have hstart : begun.foldlM (step Auth.Sample.decimals 1024) new = some overrunning := rfl
    have happend := append_of_over (t := overrunning) (e := large) rfl hover 0
    have hlost : step Auth.Sample.decimals 1024 overrunning (.append 0) =
        some (overrunning.append Auth.Sample.decimals 1024 large 0) := rfl
    change (begun ++ .append 0 :: left).foldlM (step Auth.Sample.decimals 1024) new = some overrun
    rw [List.foldlM_append, hstart, Option.bind_eq_bind, Option.bind_some, List.foldlM_cons, hlost,
      happend]
    rfl
  have hcount := h.count
  revert hcount
  decide

end Sample

end Transcript

end Seance.Core
