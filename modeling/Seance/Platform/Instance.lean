import Mathlib.Logic.Function.Basic
import Seance.Lib.Runs
import Seance.Platform.Ipc

namespace Seance.Platform
open Lib

abbrev Pid := Nat

/-- How far a process has come in `run`. A process that is dying has no thread left, but its files
are still open. -/
inductive Stage
  | launched
  | locked
  | opened
  | clearing (found : Bool)
  | cleared
  | serving
  | closing
  | leaving
  | connecting
  | writing (conn : Nat) (rest : List Char)
  | reading (conn : Nat)
  | answered (conn : Nat) (response : IpcResponse)
  | dying
  | gone
  deriving DecidableEq

namespace Stage

/-- From the lock to the drop of its guard. -/
def holds_guard : Stage → Bool
  | locked | opened | clearing _ | cleared | serving | closing => true
  | _ => false

def bound : Stage → Bool
  | serving | closing => true
  | _ => false

/-- The socket of the process takes connections. -/
def listening : Stage → Bool
  | serving | closing | leaving | dying => true
  | _ => false

/-- The threads that serve the socket and feed the UI are running. -/
def threads : Stage → Bool
  | serving | closing | leaving => true
  | _ => false

/-- The receiver of the UI has been dropped. -/
def ui_over : Stage → Bool
  | closing | leaving | dying | gone => true
  | _ => false

end Stage

inductive Reply
  | waiting
  | answered
  | dropped
  deriving DecidableEq

structure Connection where
  server : Pid
  client : Pid
  text : List Char
  closed : Bool
  reply : Reply
  deriving DecidableEq

/-- What the threads of a primary have in hand: connections to accept, the one being handled, and
whether its event has been sent; the requests handled so far; and the events and commands on
their way to the UI. -/
structure Desk where
  backlog : List Nat
  current : Option (Nat × Bool)
  log : List (Nat × IpcRequest)
  events : List PlatformEvent
  in_hand : List UiCommand
  commands : List UiCommand
  deriving DecidableEq

def Desk.idle : Desk := ⟨[], none, [], [], [], []⟩

/-- The processes over one lock file and one socket path. The path leads to the socket of a
process, or to a file that no process of the run has made. -/
structure System where
  holder : Option Pid
  socket : Option (Option Pid)
  stages : Pid → Stage
  desks : Pid → Desk
  conns : List Connection

inductive Act
  | try_lock (pid : Pid) (granted : Bool)
  | open_context (pid : Pid) (ok : Bool)
  | find_socket (pid : Pid)
  | remove_socket (pid : Pid) (ok : Bool)
  | bind (pid : Pid)
  | accept (pid : Pid)
  | handle (pid : Pid) (ok : Bool)
  | respond (pid : Pid) (ok : Bool)
  | forward (pid : Pid)
  | close_ui (pid : Pid)
  | release (pid : Pid)
  | kill (pid : Pid)
  | exit (pid : Pid)
  | connect (pid : Pid)
  | write (pid : Pid) (count : Nat)
  | read (pid : Pid)

namespace Connection

def drop (conn : Connection) : Connection := { conn with reply := .dropped }

/-- A connection after the end of a process: its own side is closed, and as a client it hears
no more. -/
def exited (pid : Pid) (conn : Connection) : Connection :=
  { conn with
    closed := conn.closed || conn.client = pid
    reply := if conn.server = pid ∧ conn.reply = .waiting then .dropped else conn.reply }

end Connection

namespace Desk

variable (d : Desk)

def handled (conn : Nat) (request : IpcRequest) : Desk :=
  { d with
    current := some (conn, true)
    log := d.log ++ [(conn, request)]
    events := d.events ++ request.event.toList }

/-- One send of the forwarding thread, or the receipt of its next event. -/
def forward (ui_over : Bool) : Option Desk :=
  match d.in_hand, d.events with
  | command :: rest, _ =>
    some { d with
      in_hand := rest
      commands := if ui_over then d.commands else d.commands ++ [command] }
  | [], event :: rest => some { d with in_hand := event.commands, events := rest }
  | [], [] => none

end Desk

namespace System

variable (s : System)

def start (stale : Bool) : System where
  holder := none
  socket := if stale then some none else none
  stages _ := .launched
  desks _ := .idle
  conns := []

def move (pid : Pid) (stage : Stage) : System :=
  { s with stages := Function.update s.stages pid stage }

def set_desk (pid : Pid) (desk : Desk) : System :=
  { s with desks := Function.update s.desks pid desk }

def unlock (pid : Pid) : System :=
  { s with holder := if s.holder = some pid then none else s.holder }

/-- The handler gives its client up. -/
def give_up (pid : Pid) (conn : Nat) : System :=
  { s.set_desk pid { s.desks pid with current := none } with
    conns := s.conns.modify conn Connection.drop }

/-- What `handle_ipc_client` does up to its answer: it waits for a line, or for the end. -/
def handle (from_str : FromStr IpcRequest) (pid : Pid) (ok : Bool) : Option System :=
  match (s.desks pid).current with
  | some (c, false) =>
    match s.conns[c]? with
    | some conn =>
      if ok = false then some (s.give_up pid c)
      else if '\n' ∈ conn.text ∨ conn.closed then
        match decode_line from_str conn.text with
        | .ok request => some (s.set_desk pid ((s.desks pid).handled c request))
        | .error _ => some (s.give_up pid c)
      else none
    | none => none
  | _ => none

def respond (pid : Pid) (ok : Bool) : Option System :=
  match (s.desks pid).current with
  | some (c, true) =>
    if ok then
      some { s.set_desk pid { s.desks pid with current := none } with
        conns := s.conns.modify c (fun conn => { conn with reply := .answered }) }
    else some (s.give_up pid c)
  | _ => none

/-- A connection to whatever the path leads to, or the end of the client. -/
def connect (request : Pid → IpcRequest) (pid : Pid) : System :=
  match s.socket with
  | some (some server) =>
    if (s.stages server).listening then
      { (s.move pid (.writing s.conns.length (encode_request (request pid)))).set_desk server
          { s.desks server with backlog := (s.desks server).backlog ++ [s.conns.length] } with
        conns := s.conns ++ [⟨server, pid, [], false, .waiting⟩] }
    else s.move pid .gone
  | _ => s.move pid .gone

/-- What has come of a connection. -/
def reply (conn : Nat) : Option Reply := (s.conns[conn]?).map Connection.reply

/-- Some more of a request, if it is still wanted; after the last of it comes the wait for the
answer. -/
def write (pid : Pid) (conn : Nat) (rest : List Char) (count : Nat) : System :=
  if s.reply conn = some .dropped then s.move pid .dying
  else
    { s.move pid (if rest.drop count = [] then .reading conn else .writing conn (rest.drop count))
        with
      conns := s.conns.modify conn (fun c => { c with text := c.text ++ rest.take count }) }

def read (pid : Pid) (conn : Nat) : Option System :=
  match s.reply conn with
  | some .answered => some (s.move pid (.answered conn .Ok))
  | some .dropped => some (s.move pid .dying)
  | _ => none

variable (from_str : FromStr IpcRequest) (request : Pid → IpcRequest)

def step : Act → Option System
  | .try_lock pid granted =>
    if s.stages pid = .launched then
      if granted = false then some (s.move pid .connecting)
      else if s.holder = none then some { s.move pid .locked with holder := some pid }
      else none
    else none
  | .open_context pid ok =>
    if s.stages pid = .locked then
      some (s.move pid (if ok then .opened else .dying))
    else none
  | .find_socket pid =>
    if s.stages pid = .opened then some (s.move pid (.clearing s.socket.isSome)) else none
  | .remove_socket pid ok =>
    match s.stages pid with
    | .clearing found =>
      some { s.move pid .cleared with socket := if found && ok then none else s.socket }
    | _ => none
  | .bind pid =>
    if s.stages pid = .cleared then
      if s.socket = none then some { s.move pid .serving with socket := some (some pid) }
      else some (s.move pid .dying)
    else none
  | .accept pid =>
    if (s.stages pid).threads ∧ (s.desks pid).current = none then
      match (s.desks pid).backlog with
      | [] => none
      | c :: rest =>
        some (s.set_desk pid { s.desks pid with backlog := rest, current := some (c, false) })
    else none
  | .handle pid ok => if (s.stages pid).threads then s.handle from_str pid ok else none
  | .respond pid ok => if (s.stages pid).threads then s.respond pid ok else none
  | .forward pid =>
    if (s.stages pid).threads then
      ((s.desks pid).forward (s.stages pid).ui_over).map (s.set_desk pid)
    else none
  | .close_ui pid => if s.stages pid = .serving then some (s.move pid .closing) else none
  | .release pid =>
    if s.stages pid = .closing then some ((s.move pid .leaving).unlock pid)
    else if s.stages pid = .dying then some (s.unlock pid)
    else none
  | .kill pid => if s.stages pid = .gone then none else some (s.move pid .dying)
  | .exit pid =>
    if s.stages pid = .leaving ∨ s.stages pid = .dying then
      some { (s.move pid .gone).unlock pid with conns := s.conns.map (Connection.exited pid) }
    else none
  | .connect pid => if s.stages pid = .connecting then some (s.connect request pid) else none
  | .write pid count =>
    match s.stages pid with
    | .writing conn rest => some (s.write pid conn rest count)
    | _ => none
  | .read pid =>
    match s.stages pid with
    | .reading conn => s.read pid conn
    | _ => none

/-- Where some steps of the processes lead, if each can be taken. -/
def run (stale : Bool) (acts : List Act) : Option System :=
  acts.foldlM (fun s a => s.step from_str request a) (start stale)

end System

/-- One process at most has the lock, and the path leads to its socket as long as it serves it. -/
structure Exclusive (s : System) : Prop where
  holder : ∀ p, (s.stages p).holds_guard = true → s.holder = some p
  socket : ∀ p, (s.stages p).bound = true → s.socket = some (some p)

section Exclusive

variable {s t : System} {from_str : FromStr IpcRequest} {request : Pid → IpcRequest} {a : Act}
  {p : Pid} {stage : Stage}

theorem exclusive_start (stale : Bool) : Exclusive (System.start stale) := ⟨nofun, nofun⟩

theorem bound_holds (h : stage.bound = true) : stage.holds_guard = true := by
  cases stage <;> first | rfl | cases h

theorem bound_listening (h : stage.bound = true) : stage.listening = true := by
  cases stage <;> first | rfl | cases h

/-- One process moves on, and the others keep what they have. -/
theorem Exclusive.moved (h : Exclusive s) (hstages : t.stages = Function.update s.stages p stage)
    (hholds : stage.holds_guard = true → t.holder = some p)
    (hbound : stage.bound = true → t.socket = some (some p))
    (hholder : ∀ q, q ≠ p → s.holder = some q → t.holder = some q)
    (hsocket : ∀ q, q ≠ p → s.holder = some q → t.socket = s.socket) : Exclusive t := by
  constructor
  · intro q hq
    rw [hstages] at hq
    by_cases hne : q = p
    · subst hne
      rw [Function.update_self] at hq
      exact hholds hq
    · rw [Function.update_of_ne hne] at hq
      exact hholder q hne (h.holder q hq)
  · intro q hq
    rw [hstages] at hq
    by_cases hne : q = p
    · subst hne
      rw [Function.update_self] at hq
      exact hbound hq
    · rw [Function.update_of_ne hne] at hq
      rw [hsocket q hne (h.holder q (bound_holds hq))]
      exact h.socket q hq

/-- A process that moves on without the lock or the socket. -/
theorem Exclusive.move (h : Exclusive s) (hstages : t.stages = Function.update s.stages p stage)
    (hholder : t.holder = s.holder) (hsocket : t.socket = s.socket)
    (hholds : stage.holds_guard = true → (s.stages p).holds_guard = true)
    (hbound : stage.bound = true → (s.stages p).bound = true) : Exclusive t := by
  refine h.moved hstages ?_ ?_ ?_ ?_
  · exact fun hs => hholder.trans (h.holder p (hholds hs))
  · exact fun hs => hsocket.trans (h.socket p (hbound hs))
  · exact fun q _ hq => hholder.trans hq
  · exact fun _ _ _ => hsocket

/-- A process gives the lock up. -/
theorem Exclusive.unlocked (h : Exclusive s) (hstages : t.stages = Function.update s.stages p stage)
    (hholder : t.holder = if s.holder = some p then none else s.holder)
    (hsocket : t.socket = s.socket) (hstage : stage.holds_guard = false) : Exclusive t := by
  refine h.moved hstages ?_ ?_ ?_ ?_
  · intro hs
    rw [hstage] at hs
    cases hs
  · intro hs
    rw [bound_holds hs] at hstage
    cases hstage
  · intro q hne hq
    rw [hholder, hq, if_neg (fun he => hne (Option.some.inj he))]
  · exact fun _ _ _ => hsocket

theorem Exclusive.congr (h : Exclusive s) (hstages : t.stages = s.stages)
    (hholder : t.holder = s.holder) (hsocket : t.socket = s.socket) : Exclusive t := by
  constructor
  · rw [hstages, hholder]
    exact h.holder
  · rw [hstages, hsocket]
    exact h.socket

/-- The threads of a primary leave the lock and the path alone. -/
theorem handle_frame {ok : Bool} (h : s.handle from_str p ok = some t) :
    t.stages = s.stages ∧ t.holder = s.holder ∧ t.socket = s.socket := by
  unfold System.handle at h
  repeat' split at h
  all_goals cases h
  all_goals exact ⟨rfl, rfl, rfl⟩

theorem respond_frame {ok : Bool} (h : s.respond p ok = some t) :
    t.stages = s.stages ∧ t.holder = s.holder ∧ t.socket = s.socket := by
  unfold System.respond at h
  repeat' split at h
  all_goals cases h
  all_goals exact ⟨rfl, rfl, rfl⟩

theorem connect_frame :
    ∃ stage, (s.connect request p).stages = Function.update s.stages p stage ∧
      stage.holds_guard = false ∧ (s.connect request p).holder = s.holder ∧
      (s.connect request p).socket = s.socket := by
  unfold System.connect
  split
  · split
    · exact ⟨_, rfl, rfl, rfl, rfl⟩
    · exact ⟨_, rfl, rfl, rfl, rfl⟩
  · exact ⟨_, rfl, rfl, rfl, rfl⟩

theorem exclusive_step (h : Exclusive s) (hstep : s.step from_str request a = some t) :
    Exclusive t := by
  cases a with
  | try_lock p granted =>
    simp only [System.step] at hstep
    repeat' split at hstep
    all_goals cases hstep
    · exact h.move rfl rfl rfl nofun nofun
    · rename_i hfree
      refine h.moved rfl (fun _ => rfl) nofun ?_ ?_
      · intro q _ hq
        cases hfree.symm.trans hq
      · exact fun _ _ _ => rfl
  | open_context p ok =>
    simp only [System.step] at hstep
    split at hstep
    · rename_i hlocked
      cases hstep
      refine h.move rfl rfl rfl ?_ ?_
      · intro _
        rw [hlocked]
        rfl
      · cases ok <;> exact nofun
    · cases hstep
  | find_socket p =>
    simp only [System.step] at hstep
    split at hstep
    · rename_i hopened
      cases hstep
      refine h.move rfl rfl rfl ?_ nofun
      intro _
      rw [hopened]
      rfl
    · cases hstep
  | remove_socket p ok =>
    simp only [System.step] at hstep
    split at hstep
    · rename_i found hclearing
      cases hstep
      have hheld : s.holder = some p := h.holder p (by rw [hclearing]; rfl)
      refine h.moved rfl (fun _ => hheld) nofun ?_ ?_
      · exact fun _ _ hq => hq
      · intro q hne hq
        exact absurd (Option.some.inj (hq.symm.trans hheld)) hne
    · cases hstep
  | bind p =>
    simp only [System.step] at hstep
    repeat' split at hstep
    all_goals cases hstep
    · rename_i hcleared _
      have hheld : s.holder = some p := h.holder p (by rw [hcleared]; rfl)
      refine h.moved rfl (fun _ => hheld) (fun _ => rfl) ?_ ?_
      · exact fun _ _ hq => hq
      · intro q hne hq
        exact absurd (Option.some.inj (hq.symm.trans hheld)) hne
    · exact h.move rfl rfl rfl nofun nofun
  | accept p =>
    simp only [System.step] at hstep
    repeat' split at hstep
    all_goals cases hstep
    exact h.congr rfl rfl rfl
  | handle p ok =>
    simp only [System.step] at hstep
    split at hstep
    · obtain ⟨hstages, hholder, hsocket⟩ := handle_frame hstep
      exact h.congr hstages hholder hsocket
    · cases hstep
  | respond p ok =>
    simp only [System.step] at hstep
    split at hstep
    · obtain ⟨hstages, hholder, hsocket⟩ := respond_frame hstep
      exact h.congr hstages hholder hsocket
    · cases hstep
  | forward p =>
    simp only [System.step] at hstep
    split at hstep
    · obtain ⟨desk, _, rfl⟩ := Option.map_eq_some_iff.mp hstep
      exact h.congr rfl rfl rfl
    · cases hstep
  | close_ui p =>
    simp only [System.step] at hstep
    split at hstep
    · rename_i hserving
      cases hstep
      refine h.move rfl rfl rfl ?_ ?_
      · intro _
        rw [hserving]
        rfl
      · intro _
        rw [hserving]
        rfl
    · cases hstep
  | release p =>
    simp only [System.step] at hstep
    repeat' split at hstep
    all_goals cases hstep
    · exact h.unlocked rfl rfl rfl rfl
    · rename_i hdying
      have hstages : s.stages = Function.update s.stages p (s.stages p) :=
        (Function.update_eq_self p s.stages).symm
      refine h.unlocked hstages rfl rfl ?_
      rw [hdying]
      rfl
  | kill p =>
    simp only [System.step] at hstep
    split at hstep
    · cases hstep
    · cases hstep
      exact h.move rfl rfl rfl nofun nofun
  | exit p =>
    simp only [System.step] at hstep
    split at hstep
    · cases hstep
      exact h.unlocked rfl rfl rfl rfl
    · cases hstep
  | connect p =>
    simp only [System.step] at hstep
    split at hstep
    · cases hstep
      obtain ⟨stage, hstages, hstage, hholder, hsocket⟩ := connect_frame (s := s)
      refine h.move hstages hholder hsocket ?_ ?_
      · intro hs
        rw [hstage] at hs
        cases hs
      · intro hs
        rw [bound_holds hs] at hstage
        cases hstage
    · cases hstep
  | write p count =>
    simp only [System.step] at hstep
    split at hstep
    · cases hstep
      unfold System.write
      split
      · exact h.move rfl rfl rfl nofun nofun
      · refine h.move rfl rfl rfl ?_ ?_
        · split <;> exact nofun
        · split <;> exact nofun
    · cases hstep
  | read p =>
    simp only [System.step] at hstep
    split at hstep
    · unfold System.read at hstep
      repeat' split at hstep
      all_goals cases hstep
      · exact h.move rfl rfl rfl nofun nofun
      · exact h.move rfl rfl rfl nofun nofun
    · cases hstep

end Exclusive

section Runs

variable {from_str : FromStr IpcRequest} {request : Pid → IpcRequest} {stale : Bool}
  {acts : List Act} {s : System}

theorem exclusive_run (hrun : System.run from_str request stale acts = some s) :
    Exclusive s :=
  run_keeps (fun _ _ _ h hstep => exclusive_step h hstep) (exclusive_start stale) hrun

/-- At most one process is between the lock and the drop of its guard, whatever others do, die of
or leave behind; and as long as it serves its socket, every client that connects stands in its
backlog. -/
theorem single_instance
    (hrun : System.run from_str request stale acts = some s) :
    (∀ p q, (s.stages p).holds_guard → (s.stages q).holds_guard → p = q) ∧
      ∀ p q t, (s.stages q).bound → s.step from_str request (.connect p) = some t →
        (t.desks q).backlog = (s.desks q).backlog ++ [s.conns.length] := by
  have h := exclusive_run hrun
  constructor
  · intro p q hp hq
    exact Option.some.inj ((h.holder p hp).symm.trans (h.holder q hq))
  · intro p q t hq hstep
    simp only [System.step] at hstep
    split at hstep
    · cases hstep
      unfold System.connect
      rw [h.socket q hq]
      dsimp only
      rw [if_pos (bound_listening hq)]
      unfold System.set_desk
      dsimp only
      rw [Function.update_self]
    · cases hstep

/-- A launch of the app, and a second one while it runs. -/
def launched_twice : List Act :=
  [.try_lock 0 true, .open_context 0 true, .find_socket 0, .remove_socket 0 true, .bind 0,
    .try_lock 1 false, .connect 1, .write 1 5, .accept 0, .write 1 100, .handle 0 true,
    .forward 0, .forward 0, .respond 0 true, .read 1]

/-- A third launch finds the first one serving. -/
theorem single_instance_twice :
    ∃ s t, System.run read_request (fun _ => .OpenWindow) true
        (launched_twice ++ [.try_lock 2 false]) = some s ∧
      s.stages 0 = .serving ∧
      (∀ p q, (s.stages p).holds_guard → (s.stages q).holds_guard → p = q) ∧
      s.step read_request (fun _ => .OpenWindow) (.connect 2) = some t ∧
      (t.desks 0).backlog = (s.desks 0).backlog ++ [s.conns.length] := by
  have hstages : (System.run read_request (fun _ => .OpenWindow) true
      (launched_twice ++ [.try_lock 2 false])).map (fun s => (s.stages 0, s.stages 2)) =
        some (.serving, .connecting) := by decide +kernel
  obtain ⟨s, hrun, hstages⟩ := Option.map_eq_some_iff.mp hstages
  obtain ⟨hserving, hconnecting⟩ := Prod.mk.inj hstages
  have hconnect : s.step read_request (fun _ => .OpenWindow) (.connect 2) =
      some (s.connect (fun _ => .OpenWindow) 2) := if_pos hconnecting
  obtain ⟨hone, hqueued⟩ := single_instance hrun
  exact ⟨s, _, hrun, hserving, hone, hconnect, hqueued 2 0 _ (hserving ▸ rfl) hconnect⟩

end Runs

end Seance.Platform
