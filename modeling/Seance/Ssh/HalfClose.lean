import Mathlib.Data.List.Induction
import Mathlib.Data.List.Infix
import Seance.Ssh.Model

namespace Seance.Ssh

/-- A proxied connection: the locals of `proxy_tcp_stream_and_channel`, what the two sides have
still to deliver, and what has been written to them. `peer_eof` says that the TCP peer ends its
stream after its bytes, `channel_ended` that the channel goes away after its messages. -/
structure Proxy where
  stream_closed : Bool
  incoming : List UInt8
  peer_eof : Bool
  messages : List ChannelMsg
  channel_ended : Bool
  to_channel : List UInt8
  to_stream : List UInt8
  channel_eof : Bool
  channel_close : Bool
  stream_shutdown : Bool
  bytes_in : Nat
  bytes_out : Nat
  result : Option (Except SshError Unit)
  deriving DecidableEq

/-- Which branch of the `select!` runs, with what the outside answers: the number of bytes a read
returns, a failed read, and the outcome of the write that follows. -/
inductive ProxyTurn
  | read (count : Nat) (written : Except String Unit)
  | readFailed (error : String)
  | wait (written : Except String Unit)

namespace Proxy

def start (incoming : List UInt8) (peer_eof : Bool) (messages : List ChannelMsg)
    (channel_ended : Bool) : Proxy where
  stream_closed := false
  incoming := incoming
  peer_eof := peer_eof
  messages := messages
  channel_ended := channel_ended
  to_channel := []
  to_stream := []
  channel_eof := false
  channel_close := false
  stream_shutdown := false
  bytes_in := 0
  bytes_out := 0
  result := none

def fail (error : SshError) (s : Proxy) : Proxy := { s with result := some (.error error) }

/-- After the loop: `channel.eof()` and `channel.close()`. -/
def finish (s : Proxy) : Proxy :=
  { s with channel_eof := true, channel_close := true, result := some (.ok ()) }

/-- `stream.read(&mut buf)` returned; without bytes it reports the end of the stream, and until
the peer ends it there is nothing to report. -/
def read (count : Nat) (written : Except String Unit) (s : Proxy) : Proxy :=
  match s.incoming with
  | [] => if s.peer_eof then { s with stream_closed := true, channel_eof := true } else s
  | _ :: _ =>
    let chunk := s.incoming.take (min (max 1 count) (64 * 1024))
    let s' := { s with
      incoming := s.incoming.drop (min (max 1 count) (64 * 1024))
      bytes_in := s.bytes_in + chunk.length }
    match written with
    | .ok () => { s' with to_channel := s.to_channel ++ chunk }
    | .error error => s'.fail (.portForwardChannel error)

def write_stream (data : List UInt8) (written : Except String Unit) (s : Proxy) : Proxy :=
  let s' := { s with bytes_out := s.bytes_out + data.length }
  match written with
  | .ok () => { s' with to_stream := s.to_stream ++ data }
  | .error error => s'.fail (.portForwardTargetConnect error)

/-- `channel.wait()` returned. -/
def wait (written : Except String Unit) (s : Proxy) : Proxy :=
  match s.messages with
  | [] => if s.channel_ended then s.finish else s
  | .data data :: rest => { s with messages := rest }.write_stream data written
  | .extendedData data _ :: rest => { s with messages := rest }.write_stream data written
  | .eof :: rest => { s with messages := rest, stream_shutdown := true, stream_closed := true }
  | .close :: rest => { s with messages := rest }.finish
  | _ :: rest => { s with messages := rest }

/-- One turn of the loop; the stream is read only while `stream_closed` is not set. -/
def turn (s : Proxy) (t : ProxyTurn) : Proxy :=
  match s.result, t with
  | some _, _ => s
  | none, .read count written => if s.stream_closed then s else s.read count written
  | none, .readFailed error =>
    if s.stream_closed then s else s.fail (.portForwardTargetConnect error)
  | none, .wait written => s.wait written

def run (s : Proxy) (turns : List ProxyTurn) : Proxy := turns.foldl turn s

end Proxy

/-- The bytes a channel delivers before it is closed. -/
def delivered : List ChannelMsg → List UInt8
  | [] => []
  | .data data :: rest => data ++ delivered rest
  | .extendedData data _ :: rest => data ++ delivered rest
  | .close :: _ => []
  | _ :: rest => delivered rest

/-- No byte is lost or moved: what has been written, followed by what is still to come, is what
the other side sends. A failed call ends the connection and the account of it. -/
structure Accounted (incoming : List UInt8) (messages : List ChannelMsg) (s : Proxy) : Prop where
  sent : s.result = none → s.to_channel ++ s.incoming = incoming
  received : s.result = none → s.to_stream ++ delivered s.messages = delivered messages
  closed : s.result = some (.ok ()) → s.to_stream = delivered messages

/-- The stream is read as long as the TCP peer has bytes to send. -/
def StaysOpen (s : Proxy) : Prop :=
  s.result = none → s.incoming ≠ [] → s.stream_closed = false

/-- A byte of either side still gets through. -/
structure Forwards (incoming : List UInt8) (messages : List ChannelMsg) (s : Proxy) : Prop extends
    Accounted incoming messages s where
  open_stream : StaysOpen s

/-- The channel's `Eof` is taken up only when the TCP peer has no bytes left. -/
def EofAfterBytes (s : Proxy) (turns : List ProxyTurn) : Prop :=
  ∀ p written, p ++ [.wait written] <+: turns → (s.run p).result = none →
    (s.run p).messages.head? = some .eof → (s.run p).incoming = []

section Turns

variable {incoming : List UInt8} {messages : List ChannelMsg} {s : Proxy}

theorem turn_ended {result : Except SshError Unit} (h : s.result = some result) (t : ProxyTurn) :
    s.turn t = s := by
  unfold Proxy.turn
  rw [h]

theorem Accounted.of_error {error : SshError} (h : s.result = some (.error error)) :
    Accounted incoming messages s := by
  constructor <;> intro hr <;> rw [h] at hr <;> cases hr

theorem Accounted.of_ok (h : s.result = some (.ok ())) (hs : s.to_stream = delivered messages) :
    Accounted incoming messages s := by
  constructor
  · intro hr
    rw [h] at hr
    cases hr
  · intro hr
    rw [h] at hr
    cases hr
  · exact fun _ => hs

theorem Accounted.write_stream {data : List UInt8} {rest : List ChannelMsg}
    (h : Accounted incoming messages s) (hr : s.result = none)
    (hd : delivered s.messages = data ++ delivered rest) (written : Except String Unit) :
    Accounted incoming messages
      (({ s with messages := rest } : Proxy).write_stream data written) := by
  cases written with
  | ok _ =>
    refine ⟨h.sent, fun _ => ?_, fun hc => absurd (hr.symm.trans hc) (by simp)⟩
    have hreceived := h.received hr
    rw [hd, ← List.append_assoc] at hreceived
    exact hreceived
  | error error => exact .of_error rfl

theorem Accounted.turn (h : Accounted incoming messages s) (t : ProxyTurn) :
    Accounted incoming messages (s.turn t) := by
  cases hr : s.result with
  | some result => rwa [turn_ended hr]
  | none =>
    unfold Proxy.turn
    rw [hr]
    cases t with
    | read count written =>
      dsimp only
      split
      · exact h
      · unfold Proxy.read
        split
        · split
          · exact ⟨h.sent, h.received, h.closed⟩
          · exact h
        · cases written with
          | ok _ =>
            refine ⟨fun _ => ?_, h.received, h.closed⟩
            change (s.to_channel ++ _) ++ _ = incoming
            rw [List.append_assoc, List.take_append_drop]
            exact h.sent hr
          | error error => exact .of_error rfl
    | readFailed error =>
      dsimp only
      split
      · exact h
      · exact .of_error rfl
    | wait written =>
      dsimp only
      unfold Proxy.wait
      have hreceived := h.received hr
      split
      · rename_i hm
        split
        · rw [hm, delivered, List.append_nil] at hreceived
          exact .of_ok rfl hreceived
        · exact h
      · rename_i data rest hm
        exact h.write_stream hr (by rw [hm, delivered]) written
      · rename_i data ext rest hm
        exact h.write_stream hr (by rw [hm, delivered]) written
      · rename_i rest hm
        rw [hm] at hreceived
        exact ⟨h.sent, fun _ => hreceived, h.closed⟩
      · rename_i rest hm
        rw [hm, delivered, List.append_nil] at hreceived
        exact .of_ok rfl hreceived
      · rename_i m rest hdata hext heof hclose hm
        refine ⟨h.sent, fun _ => ?_, h.closed⟩
        rw [hm] at hreceived
        cases m with
        | data data => exact absurd rfl (hdata data)
        | extendedData data ext => exact absurd rfl (hext data ext)
        | eof => exact absurd rfl heof
        | close => exact absurd rfl hclose
        | _ => exact hreceived

/-- A turn keeps the stream open unless it takes up the channel's `Eof` too early. -/
theorem StaysOpen.turn_iff (h : StaysOpen s) (t : ProxyTurn) :
    StaysOpen (s.turn t) ↔
      ∀ written, t = .wait written → s.result = none → s.messages.head? = some .eof →
        s.incoming = [] := by
  cases hr : s.result with
  | some result =>
    rw [turn_ended hr]
    exact ⟨fun _ _ _ hn => (by cases hn), fun _ => h⟩
  | none =>
    have hopen := h hr
    unfold Proxy.turn
    rw [hr]
    cases t with
    | read count written =>
      refine ⟨fun _ _ ht => (by cases ht), fun _ => ?_⟩
      dsimp only
      split
      · exact h
      · rename_i hc
        unfold Proxy.read
        split
        · rename_i hi
          split
          · exact fun _ hn => absurd hi hn
          · exact h
        · cases written with
          | ok _ => exact fun _ _ => by simpa using hc
          | error error => exact fun hn => by cases hn
    | readFailed error =>
      refine ⟨fun _ _ ht => (by cases ht), fun _ => ?_⟩
      dsimp only
      split
      · exact h
      · exact fun hn => by cases hn
    | wait written =>
      dsimp only
      unfold Proxy.wait
      split
      · rename_i hm
        refine ⟨fun _ _ _ _ he => (by simp [hm] at he), fun _ => ?_⟩
        split
        · exact fun hn => by cases hn
        · exact h
      · rename_i data rest hm
        refine ⟨fun _ _ _ _ he => (by simp [hm] at he), fun _ => ?_⟩
        cases written with
        | ok _ => exact fun _ => hopen
        | error error => exact fun hn => by cases hn
      · rename_i data ext rest hm
        refine ⟨fun _ _ _ _ he => (by simp [hm] at he), fun _ => ?_⟩
        cases written with
        | ok _ => exact fun _ => hopen
        | error error => exact fun hn => by cases hn
      · rename_i rest hm
        constructor
        · intro hs _ _ _ _
          by_contra hi
          cases hs hr hi
        · intro hi _ hn
          exact absurd (hi written rfl rfl (by simp [hm])) hn
      · rename_i rest hm
        exact ⟨fun _ _ _ _ he => (by simp [hm] at he), fun _ hn => by cases hn⟩
      · rename_i m rest _ _ heof _ hm
        refine ⟨fun _ _ _ _ he => ?_, fun _ _ => hopen⟩
        rw [hm, List.head?_cons, Option.some.injEq] at he
        exact absurd he heof

/-- Once the stream is no longer read, nothing more of it reaches the channel. -/
theorem closed_stays {t : ProxyTurn} (h : s.stream_closed = true) :
    (s.turn t).stream_closed = true ∧ (s.turn t).incoming = s.incoming := by
  unfold Proxy.turn
  split
  · exact ⟨h, rfl⟩
  · rw [if_pos h]
    exact ⟨h, rfl⟩
  · rw [if_pos h]
    exact ⟨h, rfl⟩
  · rename_i written _
    unfold Proxy.wait
    split
    · split <;> exact ⟨h, rfl⟩
    · cases written <;> exact ⟨h, rfl⟩
    · cases written <;> exact ⟨h, rfl⟩
    · exact ⟨rfl, rfl⟩
    · exact ⟨h, rfl⟩
    · exact ⟨h, rfl⟩

end Turns

section Runs

variable {incoming : List UInt8} {messages : List ChannelMsg} {s : Proxy}

theorem run_snoc (turns : List ProxyTurn) (t : ProxyTurn) :
    s.run (turns ++ [t]) = (s.run turns).turn t := by
  unfold Proxy.run
  rw [List.foldl_append]
  rfl

theorem Accounted.run (h : Accounted incoming messages s) (turns : List ProxyTurn) :
    Accounted incoming messages (s.run turns) := by
  induction turns using List.reverseRecOn with
  | nil => exact h
  | append_singleton turns t ih =>
    rw [run_snoc]
    exact ih.turn t

theorem closed_run (h : s.stream_closed = true) (turns : List ProxyTurn) :
    (s.run turns).stream_closed = true ∧ (s.run turns).incoming = s.incoming := by
  induction turns using List.reverseRecOn with
  | nil => exact ⟨h, rfl⟩
  | append_singleton turns t ih =>
    rw [run_snoc]
    have hs := closed_stays (t := t) ih.1
    exact ⟨hs.1, hs.2.trans ih.2⟩

theorem staysOpen_run_iff (h : StaysOpen s) (turns : List ProxyTurn) :
    (∀ p, p <+: turns → StaysOpen (s.run p)) ↔ EofAfterBytes s turns := by
  constructor
  · intro hall p written hp hr he
    have hbefore := hall p ((List.prefix_append p _).trans hp)
    have hafter := hall _ hp
    rw [run_snoc] at hafter
    exact (hbefore.turn_iff _).mp hafter written rfl hr he
  · intro heof p
    induction p using List.reverseRecOn with
    | nil => exact fun _ => h
    | append_singleton p t ih =>
      intro hp
      rw [run_snoc]
      refine ((ih ((List.prefix_append p _).trans hp)).turn_iff t).mpr ?_
      rintro written rfl hr he
      exact heof p written hp hr he

/-- Nothing is left for the loop to do while the channel stays open. -/
structure Exhausted (s : Proxy) : Prop where
  result : s.result = none
  reads : s.stream_closed = true ∨ s.incoming = [] ∧ s.peer_eof = false
  waits : s.messages = [] ∧ s.channel_ended = false

/-- Every run of a proxied connection: both directions get through in every state of it exactly
when each `Eof` of the channel is taken up after the last byte of the TCP peer; and a run that has
nothing left to do has written every byte of the TCP peer exactly in that case. -/
theorem half_close_iff (incoming : List UInt8) (peer_eof : Bool) (messages : List ChannelMsg)
    (channel_ended : Bool) (turns : List ProxyTurn) :
    ((∀ p, p <+: turns →
        Forwards incoming messages
          ((Proxy.start incoming peer_eof messages channel_ended).run p)) ↔
      EofAfterBytes (Proxy.start incoming peer_eof messages channel_ended) turns) ∧
    (Exhausted ((Proxy.start incoming peer_eof messages channel_ended).run turns) →
      (((Proxy.start incoming peer_eof messages channel_ended).run turns).to_channel = incoming ↔
        EofAfterBytes (Proxy.start incoming peer_eof messages channel_ended) turns)) := by
  have haccount : Accounted incoming messages
      (Proxy.start incoming peer_eof messages channel_ended) :=
    ⟨fun _ => rfl, fun _ => rfl, fun hc => by cases hc⟩
  have hopen : StaysOpen (Proxy.start incoming peer_eof messages channel_ended) :=
    fun _ _ => rfl
  generalize Proxy.start incoming peer_eof messages channel_ended = s at haccount hopen
  have hiff := staysOpen_run_iff hopen turns
  constructor
  · rw [← hiff]
    exact ⟨fun h p hp => (h p hp).open_stream, fun h p hp => ⟨haccount.run p, h p hp⟩⟩
  · intro hex
    have hsent := (haccount.run turns).sent hex.result
    constructor
    · intro hall p written hp hr he
      -- an early `Eof` would leave the rest of the stream unread for good
      by_contra hleft
      obtain ⟨later, hlater⟩ := hp
      have hclosed : ((s.run p).turn (.wait written)).stream_closed = true ∧
          ((s.run p).turn (.wait written)).incoming = (s.run p).incoming := by
        unfold Proxy.turn Proxy.wait
        rw [hr]
        cases hm : (s.run p).messages with
        | nil => simp [hm] at he
        | cons m rest =>
          rw [hm, List.head?_cons, Option.some.injEq] at he
          subst he
          exact ⟨rfl, rfl⟩
      have hend := closed_run hclosed.1 later
      have hrun : s.run turns = ((s.run p).turn (.wait written)).run later := by
        rw [← hlater, ← run_snoc]
        unfold Proxy.run
        rw [List.foldl_append]
      rw [← hrun, hclosed.2] at hend
      rw [hall, hend.2] at hsent
      exact hleft (List.append_right_eq_self.mp hsent)
    · intro heof
      have hfinal := hiff.mpr heof turns (List.prefix_refl _) hex.result
      have hempty : (s.run turns).incoming = [] := by
        by_contra hne
        rcases hex.reads with hc | ⟨he, _⟩
        · exact absurd ((hfinal hne).symm.trans hc) (by decide)
        · exact hne he
      rw [hempty, List.append_nil] at hsent
      exact hsent

/-- The server ends its side first; the client's two bytes are never written. -/
theorem half_close_drops_bytes :
    ((Proxy.start [1, 2] true [.eof] false).run
        [.wait (.ok ()), .read 2 (.ok ())]).to_channel = [] ∧
      Exhausted ((Proxy.start [1, 2] true [.eof] false).run
        [.wait (.ok ()), .read 2 (.ok ())]) :=
  ⟨rfl, rfl, Or.inl rfl, rfl, rfl⟩

end Runs

end Seance.Ssh
