import Seance.Platform.Instance

namespace Seance.Platform
open Lib

namespace Desk

/-- Everything that the requests handled so far have for the UI. -/
def asked (d : Desk) : List UiCommand := d.log.flatMap (fun entry => entry.2.commands)

/-- What of it is still on its way. -/
def under_way (d : Desk) : List UiCommand := d.in_hand ++ d.events.flatMap PlatformEvent.commands

def unhandled : Option (Nat × Bool) → List Nat
  | some (c, false) => [c]
  | _ => []

/-- The connections of a desk: those handled, the one at hand, and those to come. -/
def conns (d : Desk) : List Nat := d.log.map Prod.fst ++ unhandled d.current ++ d.backlog

/-- The UI gets what is asked for in its order, and all of it as long as it is there. -/
structure Flows (d : Desk) (ui_over : Bool) : Prop where
  sent : d.commands <+: d.asked
  all : ui_over = false → d.commands ++ d.under_way = d.asked

end Desk

/-- The connections of a desk are its own and stand in the order they were made in. -/
structure Filed (conns : List Connection) (p : Pid) (d : Desk) : Prop where
  ordered : d.conns.Pairwise (· < ·)
  own : ∀ c ∈ d.conns, ∃ conn, conns[c]? = some conn ∧ conn.server = p
  logged : ∀ c, d.current = some (c, true) → ∃ r, (c, r) ∈ d.log

/-- A connection carries the request of its client; what was handled for it is that request, and
it is answered only once that is done. -/
structure Sound (request : Pid → IpcRequest) (desks : Pid → Desk) (c : Nat) (conn : Connection) :
    Prop where
  text : conn.text <+: encode_request (request conn.client)
  answered : conn.reply = .answered → ∃ r, (c, r) ∈ (desks conn.server).log
  own : conn.closed = false → ∀ r, (c, r) ∈ (desks conn.server).log → r = request conn.client

/-- Where a client stands with its connection. -/
def Speaks (request : Pid → IpcRequest) (desks : Pid → Desk) (conns : List Connection) (p : Pid) :
    Stage → Prop
  | .writing c rest => ∃ conn, conns[c]? = some conn ∧ conn.client = p ∧ conn.closed = false ∧
      conn.text ++ rest = encode_request (request p)
  | .reading c => ∃ conn, conns[c]? = some conn ∧ conn.client = p ∧ conn.closed = false
  | .answered c response => response = .Ok ∧ ∃ conn, conns[c]? = some conn ∧ conn.client = p ∧
      (c, request p) ∈ (desks conn.server).log
  | _ => True

structure Delivering (request : Pid → IpcRequest) (s : System) : Prop where
  filed : ∀ p, Filed s.conns p (s.desks p)
  flows : ∀ p, (s.desks p).Flows (s.stages p).ui_over
  sound : ∀ c conn, s.conns[c]? = some conn → Sound request s.desks c conn
  speaks : ∀ p, Speaks request s.desks s.conns p (s.stages p)

section Desks

variable {d : Desk} {conns conns' : List Connection} {p : Pid} {c : Nat}

theorem flows_idle (ui_over : Bool) : Desk.idle.Flows ui_over := ⟨List.prefix_rfl, fun _ => rfl⟩

theorem filed_idle : Filed conns p .idle := ⟨List.Pairwise.nil, nofun, nofun⟩

theorem Filed.mono (h : Filed conns p d)
    (hconns : ∀ (c : Nat) (conn : Connection), conns[c]? = some conn →
      ∃ conn', conns'[c]? = some conn' ∧ conn'.server = conn.server) : Filed conns' p d := by
  refine ⟨h.ordered, ?_, h.logged⟩
  intro c hc
  obtain ⟨conn, hconn, hserver⟩ := h.own c hc
  obtain ⟨conn', hconn', hsame⟩ := hconns c conn hconn
  exact ⟨conn', hconn', hsame.trans hserver⟩

theorem Filed.accept {rest : List Nat} (h : Filed conns p d) (hcurrent : d.current = none)
    (hbacklog : d.backlog = c :: rest) :
    Filed conns p { d with backlog := rest, current := some (c, false) } := by
  have hsame : Desk.conns { d with backlog := rest, current := some (c, false) } = d.conns := by
    unfold Desk.conns
    rw [hcurrent, hbacklog]
    simp [Desk.unhandled]
  exact ⟨hsame ▸ h.ordered, hsame ▸ h.own, nofun⟩

theorem Filed.handled (h : Filed conns p d) (hcurrent : d.current = some (c, false))
    (request : IpcRequest) : Filed conns p (d.handled c request) := by
  have hsame : (d.handled c request).conns = d.conns := by
    unfold Desk.conns Desk.handled
    rw [hcurrent]
    simp [Desk.unhandled]
  refine ⟨hsame ▸ h.ordered, hsame ▸ h.own, ?_⟩
  rintro c' ⟨⟩
  exact ⟨request, List.mem_append_right _ List.mem_cons_self⟩

/-- The handler is done with its connection, one way or the other. -/
theorem Filed.done (h : Filed conns p d) : Filed conns p { d with current := none } := by
  have hsub : (Desk.conns { d with current := none }).Sublist d.conns := by
    unfold Desk.conns Desk.unhandled
    exact ((List.Sublist.refl _).append (List.nil_sublist _)).append (List.Sublist.refl _)
  exact ⟨h.ordered.sublist hsub, fun c hc => h.own c (hsub.subset hc), nofun⟩

/-- A new connection comes after all others. -/
theorem Filed.connected (h : Filed conns p d) {conn : Connection} (hserver : conn.server = p) :
    Filed (conns ++ [conn]) p { d with backlog := d.backlog ++ [conns.length] } := by
  have hsame : Desk.conns { d with backlog := d.backlog ++ [conns.length] } =
      d.conns ++ [conns.length] := by
    unfold Desk.conns
    rw [List.append_assoc _ d.backlog]
  refine ⟨?_, ?_, h.logged⟩
  · rw [hsame]
    refine List.pairwise_append.mpr ⟨h.ordered, List.pairwise_singleton _ _, ?_⟩
    intro c hc n hn
    obtain ⟨conn, hconn, _⟩ := h.own c hc
    rw [List.mem_singleton.mp hn]
    exact (List.getElem?_eq_some_iff.mp hconn).1
  · intro c hc
    rw [hsame] at hc
    rcases List.mem_append.mp hc with hc | hc
    · obtain ⟨found, hfound, hown⟩ := h.own c hc
      have hlt : c < conns.length := (List.getElem?_eq_some_iff.mp hfound).1
      exact ⟨found, (List.getElem?_append_left hlt).trans hfound, hown⟩
    · rw [List.mem_singleton.mp hc]
      exact ⟨conn, by simp, hserver⟩

theorem Desk.Flows.over {ui_over after : Bool} (h : d.Flows ui_over)
    (hafter : after = false → ui_over = false) : d.Flows after :=
  ⟨h.sent, fun ha => h.all (hafter ha)⟩

theorem Desk.Flows.handled {ui_over : Bool} (h : d.Flows ui_over) (request : IpcRequest) :
    (d.handled c request).Flows ui_over := by
  have hasked : (d.handled c request).asked = d.asked ++ request.commands := by
    simp [Desk.asked, Desk.handled]
  have hway : (d.handled c request).under_way = d.under_way ++ request.commands := by
    unfold Desk.under_way Desk.handled IpcRequest.commands
    cases request.event <;> simp
  constructor
  · rw [hasked]
    exact h.sent.trans (List.prefix_append _ _)
  · intro hopen
    rw [hasked, hway, ← h.all hopen]
    simp [Desk.handled]

theorem Desk.Flows.forward {ui_over : Bool} {after : Desk} (h : d.Flows ui_over)
    (hafter : d.forward ui_over = some after) : after.Flows ui_over := by
  unfold Desk.forward at hafter
  cases hhand : d.in_hand with
  | cons command rest =>
    rw [hhand] at hafter
    cases hafter
    cases ui_over with
    | true => exact ⟨h.sent, nofun⟩
    | false =>
      have hall : d.commands ++ command :: (rest ++ d.events.flatMap PlatformEvent.commands) =
          d.asked := by
        rw [← h.all rfl, Desk.under_way, hhand, List.cons_append]
      refine ⟨⟨rest ++ d.events.flatMap PlatformEvent.commands, ?_⟩, fun _ => ?_⟩
      · simpa [Desk.asked] using hall
      · simpa [Desk.under_way, Desk.asked] using hall
  | nil =>
    cases hevents : d.events with
    | cons event rest =>
      rw [hhand, hevents] at hafter
      cases hafter
      refine ⟨h.sent, fun hopen => ?_⟩
      have hall := h.all hopen
      rw [Desk.under_way, hhand, hevents, List.nil_append, List.flatMap_cons] at hall
      exact hall
    | nil =>
      rw [hhand, hevents] at hafter
      cases hafter

/-- The forwarding thread has nothing to do with the connections. -/
theorem forward_frame {ui_over : Bool} {after : Desk} (h : d.forward ui_over = some after) :
    after.log = d.log ∧ after.current = d.current ∧ after.backlog = d.backlog := by
  unfold Desk.forward at h
  split at h
  all_goals cases h
  all_goals exact ⟨rfl, rfl, rfl⟩

end Desks

section Steps

variable {s t : System} {from_str : FromStr IpcRequest} {request : Pid → IpcRequest} {a : Act}
  {p : Pid} {stage : Stage} {d : Desk} {c : Nat} {conn : Connection}

theorem delivering_start (stale : Bool) : Delivering request (System.start stale) :=
  ⟨fun _ => filed_idle, fun _ => flows_idle _, nofun, fun _ => trivial⟩

/-- Logs that grow, and connections that are left to their clients, change nothing for a client. -/
theorem Speaks.mono {desks desks' : Pid → Desk} {conns conns' : List Connection}
    (h : Speaks request desks conns p stage)
    (hlogs : ∀ q e, e ∈ (desks q).log → e ∈ (desks' q).log)
    (hconns : ∀ (c : Nat) (conn : Connection), conns[c]? = some conn →
      ∃ conn', conns'[c]? = some conn' ∧ conn'.server = conn.server ∧
        (conn.client = p → conn'.client = p ∧ conn'.text = conn.text ∧
          conn'.closed = conn.closed)) :
    Speaks request desks' conns' p stage := by
  cases stage with
  | writing c rest =>
    obtain ⟨conn, hconn, hclient, hopen, htext⟩ := h
    obtain ⟨conn', hconn', _, hsame⟩ := hconns c conn hconn
    obtain ⟨hclient', htext', hclosed'⟩ := hsame hclient
    exact ⟨conn', hconn', hclient', hclosed'.trans hopen, htext' ▸ htext⟩
  | reading c =>
    obtain ⟨conn, hconn, hclient, hopen⟩ := h
    obtain ⟨conn', hconn', _, hsame⟩ := hconns c conn hconn
    obtain ⟨hclient', _, hclosed'⟩ := hsame hclient
    exact ⟨conn', hconn', hclient', hclosed'.trans hopen⟩
  | answered c response =>
    obtain ⟨hok, conn, hconn, hclient, hlog⟩ := h
    obtain ⟨conn', hconn', hserver, hsame⟩ := hconns c conn hconn
    exact ⟨hok, conn', hconn', (hsame hclient).1, hserver ▸ hlogs _ _ hlog⟩
  | launched | locked | opened | clearing _ | cleared | serving | closing | leaving | connecting
  | dying | gone => trivial

/-- The stage of one process changes. -/
theorem flows_move {desks : Pid → Desk} (h : ∀ q, (desks q).Flows (s.stages q).ui_over)
    (hover : stage.ui_over = false → (s.stages p).ui_over = false) (q : Pid) :
    (desks q).Flows (Function.update s.stages p stage q).ui_over := by
  by_cases hq : q = p
  · subst hq
    rw [Function.update_self]
    exact (h q).over hover
  · rw [Function.update_of_ne hq]
    exact h q

theorem speaks_move {desks : Pid → Desk} {conns : List Connection}
    (hspeaks : Speaks request desks conns p stage)
    (h : ∀ q, q ≠ p → Speaks request desks conns q (s.stages q)) (q : Pid) :
    Speaks request desks conns q (Function.update s.stages p stage q) := by
  by_cases hq : q = p
  · subst hq
    rw [Function.update_self]
    exact hspeaks
  · rw [Function.update_of_ne hq]
    exact h q hq

/-- A process that only moves on. -/
theorem Delivering.moved (h : Delivering request s)
    (hstages : t.stages = Function.update s.stages p stage) (hdesks : t.desks = s.desks)
    (hconns : t.conns = s.conns)
    (hover : stage.ui_over = false → (s.stages p).ui_over = false)
    (hspeaks : Speaks request s.desks s.conns p stage) : Delivering request t := by
  constructor
  · rw [hdesks, hconns]
    exact h.filed
  · rw [hdesks, hstages]
    exact flows_move h.flows hover
  · rw [hdesks, hconns]
    exact h.sound
  · rw [hdesks, hconns, hstages]
    exact speaks_move hspeaks fun q _ => h.speaks q

/-- A process that moves on while its window is not over. -/
theorem Delivering.moved_from (h : Delivering request s) {before : Stage}
    (hstage : s.stages p = before) (hstages : t.stages = Function.update s.stages p stage)
    (hdesks : t.desks = s.desks) (hconns : t.conns = s.conns) (hover : before.ui_over = false)
    (hspeaks : Speaks request s.desks s.conns p stage) : Delivering request t := by
  refine h.moved hstages hdesks hconns ?_ hspeaks
  intro _
  rw [hstage]
  exact hover

/-- A process that moves on and has no window from here on. -/
theorem Delivering.moved_over (h : Delivering request s)
    (hstages : t.stages = Function.update s.stages p stage) (hdesks : t.desks = s.desks)
    (hconns : t.conns = s.conns) (hover : stage.ui_over = true)
    (hspeaks : Speaks request s.desks s.conns p stage) : Delivering request t := by
  refine h.moved hstages hdesks hconns ?_ hspeaks
  intro hopen
  cases hover.symm.trans hopen

/-- A log that the change of a desk leaves alone. -/
theorem log_update (hlog : d.log = (s.desks p).log) (q : Pid) :
    (Function.update s.desks p d q).log = (s.desks q).log := by
  by_cases hq : q = p
  · subst hq
    rw [Function.update_self, hlog]
  · rw [Function.update_of_ne hq]

/-- The desk of one process changes. -/
theorem filed_update (h : ∀ q, Filed s.conns q (s.desks q)) (hd : Filed s.conns p d) (q : Pid) :
    Filed s.conns q (Function.update s.desks p d q) := by
  by_cases hq : q = p
  · subst hq
    rw [Function.update_self]
    exact hd
  · rw [Function.update_of_ne hq]
    exact h q

theorem flows_update (h : ∀ q, (s.desks q).Flows (s.stages q).ui_over)
    (hd : d.Flows (s.stages p).ui_over) (q : Pid) :
    (Function.update s.desks p d q).Flows (s.stages q).ui_over := by
  by_cases hq : q = p
  · subst hq
    rw [Function.update_self]
    exact hd
  · rw [Function.update_of_ne hq]
    exact h q

theorem Sound.mono {desks : Pid → Desk} {conn' : Connection} (h : Sound request s.desks c conn)
    (hlogs : ∀ q, (desks q).log = (s.desks q).log) (hserver : conn'.server = conn.server)
    (hclient : conn'.client = conn.client) (htext : conn'.text = conn.text)
    (hclosed : conn'.closed = false → conn.closed = false)
    (hanswered : conn'.reply = .answered → conn.reply = .answered ∨
      ∃ r, (c, r) ∈ (s.desks conn.server).log) : Sound request desks c conn' := by
  refine ⟨?_, ?_, ?_⟩
  · rw [htext, hclient]
    exact h.text
  · intro hreply
    rw [hlogs, hserver]
    exact (hanswered hreply).elim h.answered id
  · intro hopen
    rw [hlogs, hserver, hclient]
    exact h.own (hclosed hopen)

/-- A step of a thread that handles nothing and answers nobody. -/
theorem Delivering.desk (h : Delivering request s) (hfiled : Filed s.conns p d)
    (hflows : d.Flows (s.stages p).ui_over) (hlog : d.log = (s.desks p).log) :
    Delivering request (s.set_desk p d) where
  filed := filed_update h.filed hfiled
  flows := flows_update h.flows hflows
  sound c conn hconn :=
    (h.sound c conn hconn).mono (log_update hlog) rfl rfl rfl id .inl
  speaks q := (h.speaks q).mono (fun q _ he => (log_update hlog q).symm ▸ he)
    (fun _ conn hconn => ⟨conn, hconn, rfl, fun hclient => ⟨hclient, rfl, rfl⟩⟩)

/-- The handler is done with a connection: its client is answered, once its request has been
handled, or given up. -/
theorem Delivering.replied (h : Delivering request s) {state : Bool} (reply : Reply)
    (hcurrent : (s.desks p).current = some (c, state))
    (hreply : reply = .answered → state = true) :
    Delivering request { s.set_desk p { s.desks p with current := none } with
      conns := s.conns.modify c (fun conn => { conn with reply }) } := by
  have hserver : ∀ conn, s.conns[c]? = some conn → state = true →
      ∃ r, (c, r) ∈ (s.desks conn.server).log := by
    rintro conn hconn rfl
    obtain ⟨r, hr⟩ := (h.filed p).logged c hcurrent
    have hmem : c ∈ (s.desks p).conns := by
      unfold Desk.conns
      exact List.mem_append_left _ (List.mem_append_left _ (List.mem_map_of_mem hr))
    obtain ⟨found, hfound, hown⟩ := (h.filed p).own c hmem
    cases hfound.symm.trans hconn
    exact ⟨r, hown ▸ hr⟩
  have hlogs : ∀ q, (Function.update s.desks p { s.desks p with current := none } q).log =
      (s.desks q).log := log_update rfl
  have hconns : ∀ (c' : Nat) (conn : Connection), s.conns[c']? = some conn →
      ∃ conn', (s.conns.modify c (fun conn => { conn with reply }))[c']? = some conn' ∧
        conn'.server = conn.server ∧
        (conn'.client = conn.client ∧ conn'.text = conn.text ∧ conn'.closed = conn.closed) := by
    intro c' conn hconn
    rw [List.getElem?_modify, hconn]
    split
    · exact ⟨_, rfl, rfl, rfl, rfl, rfl⟩
    · exact ⟨_, rfl, rfl, rfl, rfl, rfl⟩
  refine ⟨?_, ?_, ?_, ?_⟩
  · intro q
    refine (filed_update h.filed (h.filed p).done q).mono ?_
    intro c' conn hconn
    obtain ⟨conn', hconn', hsame, _⟩ := hconns c' conn hconn
    exact ⟨conn', hconn', hsame⟩
  · exact flows_update h.flows ⟨(h.flows p).sent, (h.flows p).all⟩
  · intro c' conn' hconn'
    have hmodify : (s.conns.modify c (fun conn => { conn with reply }))[c']? = some conn' := hconn'
    rw [List.getElem?_modify] at hmodify
    obtain ⟨conn, hconn, rfl⟩ := Option.map_eq_some_iff.mp hmodify
    refine (h.sound c' conn hconn).mono hlogs ?_ ?_ ?_ ?_ ?_
    · split <;> rfl
    · split <;> rfl
    · split <;> rfl
    · split <;> exact id
    · split
      · rename_i hc
        subst hc
        exact fun hanswered => .inr (hserver conn hconn (hreply hanswered))
      · exact .inl
  · intro q
    refine (h.speaks q).mono (fun q _ he => (hlogs q).symm ▸ he) ?_
    intro c' conn hconn
    obtain ⟨conn', hconn', hserver', hclient, htext, hclosed⟩ := hconns c' conn hconn
    exact ⟨conn', hconn', hserver', fun hp => ⟨hclient.trans hp, htext, hclosed⟩⟩

/-- What a handler reads from a client that is still there is the client's request. -/
theorem decoded (hreads : Reads from_str IpcRequest.json) (h : Sound request s.desks c conn)
    (hready : '\n' ∈ conn.text ∨ conn.closed) {r : IpcRequest}
    (hdecode : decode_line from_str conn.text = .ok r) (hopen : conn.closed = false) :
    r = request conn.client := by
  have hline : '\n' ∈ conn.text := by
    rcases hready with hline | hclosed
    · exact hline
    · rw [hopen] at hclosed
      cases hclosed
  obtain ⟨rest, hrest⟩ := h.text
  rw [eq_of_newline hrest hline, decode_request hreads] at hdecode
  exact (Except.ok.inj hdecode).symm

theorem Delivering.handled (hreads : Reads from_str IpcRequest.json) (h : Delivering request s)
    (hcurrent : (s.desks p).current = some (c, false)) (hconn : s.conns[c]? = some conn)
    (hready : '\n' ∈ conn.text ∨ conn.closed) {r : IpcRequest}
    (hdecode : decode_line from_str conn.text = .ok r) :
    Delivering request (s.set_desk p ((s.desks p).handled c r)) := by
  have hserver : conn.server = p := by
    have hmem : c ∈ (s.desks p).conns := by
      unfold Desk.conns
      rw [hcurrent]
      exact List.mem_append_left _ (List.mem_append_right _ List.mem_cons_self)
    obtain ⟨found, hfound, hown⟩ := (h.filed p).own c hmem
    cases hfound.symm.trans hconn
    exact hown
  have hlogs : ∀ q e, e ∈ (s.desks q).log →
      e ∈ (Function.update s.desks p ((s.desks p).handled c r) q).log := by
    intro q e he
    by_cases hq : q = p
    · subst hq
      rw [Function.update_self]
      exact List.mem_append_left _ he
    · rwa [Function.update_of_ne hq]
  refine ⟨filed_update h.filed ((h.filed p).handled hcurrent r),
    flows_update h.flows ((h.flows p).handled r), ?_, ?_⟩
  · intro c' conn' hconn'
    have hsound := h.sound c' conn' hconn'
    refine ⟨hsound.text, ?_, ?_⟩
    · intro hanswered
      obtain ⟨found, hfound⟩ := hsound.answered hanswered
      exact ⟨found, hlogs _ _ hfound⟩
    · intro hopen found hfound
      have hentry : (c', found) ∈ (Function.update s.desks p ((s.desks p).handled c r)
        conn'.server).log := hfound
      by_cases hq : conn'.server = p
      · rw [hq, Function.update_self] at hentry
        rcases List.mem_append.mp hentry with hold | hnew
        · exact hsound.own hopen found (hq ▸ hold)
        · cases List.mem_singleton.mp hnew
          cases hconn.symm.trans hconn'
          exact decoded hreads hsound hready hdecode hopen
      · rw [Function.update_of_ne hq] at hentry
        exact hsound.own hopen found hentry
  · intro q
    exact (h.speaks q).mono hlogs
      (fun _ conn hconn => ⟨conn, hconn, rfl, fun hclient => ⟨hclient, rfl, rfl⟩⟩)

/-- A process has come to its end, and its connections with it. -/
theorem Delivering.exited (h : Delivering request s) :
    Delivering request { (s.move p .gone).unlock p with
      conns := s.conns.map (Connection.exited p) } := by
  have hmap : ∀ (c : Nat) (conn : Connection), s.conns[c]? = some conn →
      (s.conns.map (Connection.exited p))[c]? = some (conn.exited p) := by
    intro c conn hconn
    rw [List.getElem?_map, hconn]
    rfl
  refine ⟨?_, flows_move h.flows nofun, ?_, speaks_move trivial ?_⟩
  · intro q
    exact (h.filed q).mono fun c conn hconn => ⟨conn.exited p, hmap c conn hconn, rfl⟩
  · intro c conn' hconn'
    obtain ⟨conn, hconn, rfl⟩ := Option.map_eq_some_iff.mp (List.getElem?_map.symm.trans hconn')
    refine (h.sound c conn hconn).mono (fun _ => rfl) rfl rfl rfl ?_ ?_
    · unfold Connection.exited
      intro hopen
      exact (Bool.or_eq_false_iff.mp hopen).1
    · unfold Connection.exited
      dsimp only
      split
      · nofun
      · exact .inl
  · intro q hq
    refine (h.speaks q).mono (fun _ _ he => he) ?_
    intro c conn hconn
    refine ⟨conn.exited p, hmap c conn hconn, rfl, ?_⟩
    rintro rfl
    simp [Connection.exited, hq]

/-- A client that finds a listening socket stands at the end of its backlog. -/
theorem Delivering.connected (h : Delivering request s) (server : Pid)
    (hstage : s.stages p = .connecting) :
    Delivering request
      { (s.move p (.writing s.conns.length (encode_request (request p)))).set_desk server
          { s.desks server with backlog := (s.desks server).backlog ++ [s.conns.length] } with
        conns := s.conns ++ [⟨server, p, [], false, .waiting⟩] } := by
  have hgrown : ∀ (c : Nat) (conn : Connection), s.conns[c]? = some conn →
      (s.conns ++ [⟨server, p, [], false, .waiting⟩])[c]? = some conn := by
    intro c conn hconn
    rw [List.getElem?_append_left (List.getElem?_eq_some_iff.mp hconn).1, hconn]
  have hlogs : ∀ q, (Function.update s.desks server
      { s.desks server with backlog := (s.desks server).backlog ++ [s.conns.length] } q).log =
      (s.desks q).log := log_update rfl
  have hflows : Desk.Flows
      { s.desks server with backlog := (s.desks server).backlog ++ [s.conns.length] }
      (s.stages server).ui_over := ⟨(h.flows server).sent, (h.flows server).all⟩
  refine ⟨?_, flows_move (flows_update h.flows hflows) ?_, ?_, speaks_move ?_ ?_⟩
  · apply filed_update (s := { s with conns := s.conns ++ [⟨server, p, [], false, .waiting⟩] })
    · exact fun q => (h.filed q).mono fun c conn hconn => ⟨conn, hgrown c conn hconn, rfl⟩
    · exact (h.filed server).connected rfl
  · intro _
    rw [hstage]
    rfl
  · intro c conn hconn
    rcases Nat.lt_or_ge c s.conns.length with hc | hc
    · exact (h.sound c conn ((List.getElem?_append_left hc).symm.trans hconn)).mono hlogs rfl rfl
        rfl id .inl
    · have hnone : s.conns[c]? = none := List.getElem?_eq_none hc
      have hnew := (List.getElem?_append_right hc).symm.trans hconn
      obtain rfl := List.mem_singleton.mp (List.mem_of_getElem? hnew)
      refine ⟨List.nil_prefix, nofun, fun _ r hr => ?_⟩
      have hmem : c ∈ (s.desks server).conns := by
        unfold Desk.conns
        apply List.mem_append_left
        apply List.mem_append_left
        exact List.mem_map_of_mem (f := Prod.fst) ((hlogs server) ▸ hr)
      obtain ⟨found, hfound, _⟩ := (h.filed server).own c hmem
      cases hnone.symm.trans hfound
  · exact ⟨⟨server, p, [], false, .waiting⟩, by simp, rfl, rfl, rfl⟩
  · intro q _
    exact (h.speaks q).mono (fun q _ he => (hlogs q).symm ▸ he)
      (fun c conn hconn => ⟨conn, hgrown c conn hconn, rfl, fun hclient => ⟨hclient, rfl, rfl⟩⟩)

/-- A client writes some more of its request. -/
theorem Delivering.wrote (h : Delivering request s) {rest : List Char} (count : Nat)
    (hstage : s.stages p = .writing c rest) : Delivering request (s.write p c rest count) := by
  obtain ⟨conn, hconn, rfl, hopen, htext⟩ : Speaks request s.desks s.conns p (.writing c rest) :=
    hstage ▸ h.speaks p
  have hnot : (s.stages conn.client).ui_over = false := by
    rw [hstage]
    rfl
  unfold System.write
  split
  · exact h.moved_over rfl rfl rfl rfl trivial
  · have hmodify : ∀ (c' : Nat) (found : Connection), s.conns[c']? = some found →
        (s.conns.modify c (fun conn => { conn with text := conn.text ++ rest.take count }))[c']? =
          some (if c = c' then { found with text := found.text ++ rest.take count }
            else found) := by
      intro c' found hfound
      rw [List.getElem?_modify, hfound]
      split <;> rfl
    refine ⟨?_, flows_move h.flows (fun _ => hnot), ?_, speaks_move ?_ ?_⟩
    · intro q
      refine (h.filed q).mono fun c' found hfound => ⟨_, hmodify c' found hfound, ?_⟩
      split <;> rfl
    · intro c' conn' hconn'
      obtain ⟨found, hfound, rfl⟩ := Option.map_eq_some_iff.mp
        ((List.getElem?_modify ..).symm.trans hconn')
      have hsound := h.sound c' found hfound
      by_cases hc : c = c'
      · subst hc
        cases hconn.symm.trans hfound
        rw [if_pos rfl]
        refine ⟨⟨rest.drop count, ?_⟩, hsound.answered, hsound.own⟩
        rw [List.append_assoc, List.take_append_drop]
        exact htext
      · rw [if_neg hc]
        exact ⟨hsound.text, hsound.answered, hsound.own⟩
    · have hat := hmodify c conn hconn
      rw [if_pos rfl] at hat
      split
      · exact ⟨_, hat, rfl, hopen⟩
      · refine ⟨_, hat, rfl, hopen, ?_⟩
        rw [List.append_assoc, List.take_append_drop]
        exact htext
    · intro q hq
      refine (h.speaks q).mono (fun _ _ he => he) ?_
      intro c' found hfound
      refine ⟨_, hmodify c' found hfound, ?_, ?_⟩
      · split <;> rfl
      · rintro rfl
        rw [if_neg]
        · exact ⟨rfl, rfl, rfl⟩
        · rintro rfl
          cases hconn.symm.trans hfound
          exact hq rfl

/-- A client has its answer. -/
theorem Delivering.read (h : Delivering request s) (hstage : s.stages p = .reading c)
    (hread : s.read p c = some t) : Delivering request t := by
  obtain ⟨conn, hconn, rfl, hopen⟩ : Speaks request s.desks s.conns p (.reading c) :=
    hstage ▸ h.speaks p
  unfold System.read System.reply at hread
  rw [hconn] at hread
  split at hread
  · rename_i hreply
    cases hread
    refine h.moved_from hstage rfl rfl rfl rfl ⟨rfl, conn, hconn, rfl, ?_⟩
    obtain ⟨r, hr⟩ := (h.sound c conn hconn).answered (Option.some.inj hreply)
    rwa [← (h.sound c conn hconn).own hopen r hr]
  · cases hread
    exact h.moved_over rfl rfl rfl rfl trivial
  · cases hread

theorem Delivering.handle (hreads : Reads from_str IpcRequest.json) (h : Delivering request s)
    {ok : Bool} (hhandle : s.handle from_str p ok = some t) : Delivering request t := by
  unfold System.handle at hhandle
  split at hhandle
  · rename_i c hcurrent
    split at hhandle
    · rename_i conn hconn
      split at hhandle
      · cases hhandle
        exact h.replied .dropped hcurrent nofun
      · split at hhandle
        · rename_i hready
          split at hhandle
          · rename_i r hdecode
            cases hhandle
            exact h.handled hreads hcurrent hconn hready hdecode
          · cases hhandle
            exact h.replied .dropped hcurrent nofun
        · cases hhandle
    · cases hhandle
  · cases hhandle

theorem Delivering.respond (h : Delivering request s) {ok : Bool}
    (hrespond : s.respond p ok = some t) : Delivering request t := by
  unfold System.respond at hrespond
  split at hrespond
  · rename_i c hcurrent
    split at hrespond
    · cases hrespond
      exact h.replied .answered hcurrent (fun _ => rfl)
    · cases hrespond
      exact h.replied .dropped hcurrent nofun
  · cases hrespond

theorem Delivering.connect (h : Delivering request s) (hstage : s.stages p = .connecting) :
    Delivering request (s.connect request p) := by
  unfold System.connect
  split
  · rename_i server _
    split
    · exact h.connected server hstage
    · exact h.moved_over rfl rfl rfl rfl trivial
  · exact h.moved_over rfl rfl rfl rfl trivial

theorem delivering_step (hreads : Reads from_str IpcRequest.json) (h : Delivering request s)
    (hstep : s.step from_str request a = some t) : Delivering request t := by
  cases a with
  | try_lock p granted =>
    simp only [System.step] at hstep
    split at hstep
    · rename_i hstage
      repeat' split at hstep
      all_goals cases hstep
      · exact h.moved_from hstage rfl rfl rfl rfl trivial
      · exact h.moved_from hstage rfl rfl rfl rfl trivial
    · cases hstep
  | open_context p ok =>
    simp only [System.step] at hstep
    split at hstep
    · rename_i hstage
      cases hstep
      refine h.moved_from hstage rfl rfl rfl rfl ?_
      cases ok <;> trivial
    · cases hstep
  | find_socket p =>
    simp only [System.step] at hstep
    split at hstep
    · rename_i hstage
      cases hstep
      exact h.moved_from hstage rfl rfl rfl rfl trivial
    · cases hstep
  | remove_socket p ok =>
    simp only [System.step] at hstep
    split at hstep
    · rename_i found hstage
      cases hstep
      exact h.moved_from hstage rfl rfl rfl rfl trivial
    · cases hstep
  | bind p =>
    simp only [System.step] at hstep
    split at hstep
    · rename_i hstage
      split at hstep
      all_goals cases hstep
      · exact h.moved_from hstage rfl rfl rfl rfl trivial
      · exact h.moved_over rfl rfl rfl rfl trivial
    · cases hstep
  | accept p =>
    simp only [System.step] at hstep
    split at hstep
    · rename_i hready
      split at hstep
      · cases hstep
      · rename_i hbacklog
        cases hstep
        exact h.desk ((h.filed p).accept hready.2 hbacklog) ⟨(h.flows p).sent, (h.flows p).all⟩ rfl
    · cases hstep
  | handle p ok =>
    simp only [System.step] at hstep
    split at hstep
    · exact h.handle hreads hstep
    · cases hstep
  | respond p ok =>
    simp only [System.step] at hstep
    split at hstep
    · exact h.respond hstep
    · cases hstep
  | forward p =>
    simp only [System.step] at hstep
    split at hstep
    · obtain ⟨d, hd, rfl⟩ := Option.map_eq_some_iff.mp hstep
      obtain ⟨hlog, hcurrent, hbacklog⟩ := forward_frame hd
      refine h.desk ⟨?_, ?_, ?_⟩ ((h.flows p).forward hd) hlog
      · unfold Desk.conns
        rw [hlog, hcurrent, hbacklog]
        exact (h.filed p).ordered
      · unfold Desk.conns
        rw [hlog, hcurrent, hbacklog]
        exact (h.filed p).own
      · rw [hlog, hcurrent]
        exact (h.filed p).logged
    · cases hstep
  | close_ui p =>
    simp only [System.step] at hstep
    split at hstep
    · cases hstep
      exact h.moved_over rfl rfl rfl rfl trivial
    · cases hstep
  | release p =>
    simp only [System.step] at hstep
    repeat' split at hstep
    all_goals cases hstep
    · exact h.moved_over rfl rfl rfl rfl trivial
    · exact ⟨h.filed, h.flows, h.sound, h.speaks⟩
  | kill p =>
    simp only [System.step] at hstep
    split at hstep
    · cases hstep
    · cases hstep
      exact h.moved_over rfl rfl rfl rfl trivial
  | exit p =>
    simp only [System.step] at hstep
    split at hstep
    · cases hstep
      exact h.exited
    · cases hstep
  | connect p =>
    simp only [System.step] at hstep
    split at hstep
    · rename_i hstage
      cases hstep
      exact h.connect hstage
    · cases hstep
  | write p count =>
    simp only [System.step] at hstep
    split at hstep
    · rename_i c rest hstage
      cases hstep
      exact h.wrote count hstage
    · cases hstep
  | read p =>
    simp only [System.step] at hstep
    split at hstep
    · rename_i c hstage
      exact h.read hstage hstep
    · cases hstep

end Steps

section Runs

variable {from_str : FromStr IpcRequest} {request : Pid → IpcRequest} {stale : Bool}
  {acts : List Act} {s : System}

theorem delivering_run (hreads : Reads from_str IpcRequest.json)
    (hrun : System.run from_str request stale acts = some s) :
    Delivering request s :=
  run_keeps (fun _ _ _ h hstep => delivering_step hreads h hstep) (delivering_start stale) hrun

/-- A client that is told Ok has had its request handled on its own connection, as that connection's
only one and in the order of the connections, by the process it reached; and what a process has handed to its UI is
what these requests ask for, in that order and nothing twice, and with what is on its way all of
it as long as the UI is there. -/
theorem requests_delivered (hreads : Reads from_str IpcRequest.json)
    (hrun : System.run from_str request stale acts = some s) :
    (∀ p c response, s.stages p = .answered c response →
      response = .Ok ∧ ∃ conn, s.conns[c]? = some conn ∧ conn.client = p ∧
        (c, request p) ∈ (s.desks conn.server).log) ∧
    ∀ p, ((s.desks p).log.map Prod.fst).Pairwise (· < ·) ∧
      (∀ c r, (c, r) ∈ (s.desks p).log → ∃ conn, s.conns[c]? = some conn ∧ conn.server = p) ∧
      (s.desks p).commands <+: (s.desks p).asked ∧
      ((s.stages p).ui_over = false →
        (s.desks p).commands ++ (s.desks p).under_way = (s.desks p).asked) := by
  have h := delivering_run hreads hrun
  constructor
  · intro p c response hstage
    exact (hstage ▸ h.speaks p : Speaks request s.desks s.conns p (.answered c response))
  · intro p
    have hsub : ((s.desks p).log.map Prod.fst).Sublist (s.desks p).conns := by
      unfold Desk.conns
      rw [List.append_assoc]
      exact List.sublist_append_left _ _
    refine ⟨(h.filed p).ordered.sublist hsub, ?_, (h.flows p).sent, (h.flows p).all⟩
    intro c r hr
    exact (h.filed p).own c (hsub.subset (List.mem_map_of_mem hr))

theorem requests_delivered_twice :
    ∃ s, System.run read_request (fun _ => .OpenWindow) true launched_twice = some s ∧
      s.stages 1 = .answered 0 .Ok ∧ (s.desks 0).commands = [.ActivateApp] ∧
      (s.desks 0).commands ++ (s.desks 0).under_way = (s.desks 0).asked := by
  obtain ⟨s, hrun⟩ := Option.isSome_iff_exists.mp (show (System.run read_request
    (fun _ => .OpenWindow) true launched_twice).isSome by decide +kernel)
  have hstages : (System.run read_request (fun _ => .OpenWindow) true launched_twice).map
      (fun s => (s.stages 0, s.stages 1, (s.desks 0).commands)) =
        some (.serving, .answered 0 .Ok, [.ActivateApp]) := by decide +kernel
  rw [hrun] at hstages
  obtain ⟨hserving, hanswered, hcommands⟩ := Prod.mk.inj (Option.some.inj hstages)
    |>.imp id Prod.mk.inj
  refine ⟨s, hrun, hanswered, hcommands, ?_⟩
  obtain ⟨_, hdesks⟩ := requests_delivered reads_request hrun
  apply (hdesks 0).2.2.2
  rw [hserving]
  rfl

end Runs

end Seance.Platform
