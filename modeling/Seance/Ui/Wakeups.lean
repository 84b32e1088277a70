import Seance.Lib.Runs
import Seance.Ui.Paced

namespace Seance.Ui.Wakeups
open Lib

/-- Who has the receiving end of a session's notifications, and where this window's
`schedule_session_watcher` stands with it. -/
inductive SessionWatcher
  | untaken
  | elsewhere
  | receiving
  | draining
  | updating
  | stopped
  deriving DecidableEq, Repr

/-- A session as its worker and its watcher share it. The worker stands between writing the
viewport and `try_send` while `publishing`; the channel holds one notification. -/
structure SharedSession (V : Type) where
  viewport : V
  publishing : Bool := false
  ended : Bool := false
  notified : Bool := false
  watcher : SessionWatcher := .untaken

/-- A window on the sessions: what it refreshes, and what its terminal surface was synchronised
with last, that is the session whose viewport was read and the viewport. Which of its rows are
painted anew is decided by their revisions. Session ids are handed out in order and not used
again. -/
structure TerminalView (V : Type) where
  next_session_id : Nat := 1
  sessions : Nat → Option (SharedSession V) := fun _ => none
  active_session_id : Nat := 0
  terminal_shown : Bool := true
  pacer : PacedWorkspace := {}
  dirty : Bool := false
  synced : Option (Nat × V) := none

inductive Act (V : Type)
  | launch (viewport : V)
  | publish (id : Nat) (viewport : V)
  | notify (id : Nat)
  | hangUp (id : Nat)
  | takeNotifyRx (id : Nat)
  | takenElsewhere (id : Nat)
  | recvElsewhere (id : Nat)
  | recv (id : Nat)
  | tryRecv (id : Nat)
  | update (id : Nat) (now : Nat)
  | select (id : Nat) (now : Nat)
  | openSurface (terminal : Bool)
  | pace (a : PacedWorkspace.Step)
  | draw

namespace SharedSession

variable {V : Type} (session : SharedSession V)

/-- `publish_viewport` and `set_error`, up to the notification. -/
def publish (viewport : V) : Option (SharedSession V) :=
  if session.publishing || session.ended then none
  else some { session with viewport, publishing := true }

/-- The `try_send` at their end: a full channel keeps the notification it has. -/
def notify : Option (SharedSession V) :=
  if session.publishing then some { session with publishing := false, notified := true } else none

/-- The sender goes with the worker. -/
def hangUp : Option (SharedSession V) :=
  if session.publishing then none else some { session with ended := true }

def takeNotifyRx (watcher : SessionWatcher) : Option (SharedSession V) :=
  if session.watcher = .untaken then some { session with watcher } else none

def recvElsewhere : Option (SharedSession V) :=
  if session.watcher = .elsewhere ∧ session.notified then some { session with notified := false }
  else none

/-- The blocking receive: what the channel holds comes before its end. -/
def recv : Option (SharedSession V) :=
  if session.watcher = .receiving then
    if session.notified then some { session with notified := false, watcher := .draining }
    else if session.ended then some { session with watcher := .stopped }
    else none
  else none

def tryRecv : Option (SharedSession V) :=
  if session.watcher = .draining then
    if session.notified then some { session with notified := false }
    else some { session with watcher := .updating }
  else none

end SharedSession

namespace TerminalView

variable {V : Type} (M : Floats) (s : TerminalView V)

def with_session (id : Nat) (change : SharedSession V → Option (SharedSession V)) :
    Option (TerminalView V) := do
  let session ← s.sessions id
  let session ← change session
  some { s with sessions := Function.update s.sessions id (some session) }

/-- The end of `refresh_active_terminal_view`, and all that a watcher asks for. -/
def request_repaint (now : Nat) : TerminalView V :=
  { s with pacer := s.pacer.request_repaint .TERMINAL_UPDATE now }

def select_session (id now : Nat) : TerminalView V :=
  ({ s with active_session_id := id } : TerminalView V).request_repaint now

/-- A flush that refreshes has `cx.notify` and `window.refresh` draw the window anew. -/
def pace (a : PacedWorkspace.Step) : Option (TerminalView V) := do
  let pacer ← s.pacer.step M a
  some { s with pacer, dirty := s.dirty || s.pacer.refreshes.length < pacer.refreshes.length }

/-- What `sync_terminal_surface` reads: the active session and its viewport. -/
def active_viewport : Option (Nat × V) :=
  (s.sessions s.active_session_id).map fun session => (s.active_session_id, session.viewport)

/-- `render_terminal_pane` synchronises the surface where it is the one shown; a window with no
session ends before that. -/
def draw : TerminalView V :=
  { s with
    dirty := false
    synced := if s.terminal_shown then s.active_viewport.or s.synced else s.synced }

def step : Act V → Option (TerminalView V)
  | .launch viewport =>
    some
      { s with
        next_session_id := s.next_session_id + 1
        sessions := Function.update s.sessions s.next_session_id (some { viewport }) }
  | .publish id viewport => s.with_session id (·.publish viewport)
  | .notify id => s.with_session id (·.notify)
  | .hangUp id => s.with_session id (·.hangUp)
  | .takeNotifyRx id => s.with_session id (·.takeNotifyRx .receiving)
  | .takenElsewhere id => s.with_session id (·.takeNotifyRx .elsewhere)
  | .recvElsewhere id => s.with_session id (·.recvElsewhere)
  | .recv id => s.with_session id (·.recv)
  | .tryRecv id => s.with_session id (·.tryRecv)
  | .update id now => do
    let s ← s.with_session id fun session =>
      if session.watcher = .updating then some { session with watcher := .receiving } else none
    some (s.request_repaint now)
  | .select id now => if id < s.next_session_id then some (s.select_session id now) else none
  | .openSurface terminal => some { s with terminal_shown := terminal, dirty := true }
  | .pace a => s.pace M a
  | .draw => some s.draw

def run (acts : List (Act V)) : Option (TerminalView V) := acts.foldlM (step M) s

end TerminalView

section Sessions

variable {V : Type} {session after : SharedSession V}

/-- A worker that is gone writes no more, and a watcher stops once it is and all is received. -/
structure SharedSession.Sound (session : SharedSession V) : Prop where
  ended : session.ended = true → session.publishing = false
  stopped : session.watcher = .stopped → session.ended = true ∧ session.notified = false

/-- What a publication still has to go through before its window is asked to repaint. -/
def SharedSession.Pending (session : SharedSession V) : Prop :=
  session.publishing = true ∨ session.notified = true ∨ session.watcher = .draining ∨
    session.watcher = .updating

/-- A change of a session keeps it sound, and leaves a publication pending that is pending or made,
unless the receiver is another window's or the change is the watcher's last. -/
structure SharedSession.Keeps (session after : SharedSession V) : Prop where
  sound : session.Sound → after.Sound
  pending : after.watcher ≠ .elsewhere → session.watcher ≠ .elsewhere ∧
    (after.Pending ∨ ¬session.Pending ∧ after.viewport = session.viewport)

theorem SharedSession.sound_launch (viewport : V) : ({ viewport } : SharedSession V).Sound :=
  ⟨nofun, nofun⟩

theorem SharedSession.keeps_publish {viewport : V} (h : session.publish viewport = some after) :
    session.Keeps after := by
  obtain ⟨hidle, hafter⟩ := Option.ite_none_left_eq_some.mp h
  cases hafter
  have hlive : session.ended = false := by
    cases hended : session.ended with
    | false => rfl
    | true => simp [hended] at hidle
  refine ⟨fun hs => ⟨?_, hs.stopped⟩, fun hmine => ⟨hmine, .inl (.inl rfl)⟩⟩
  intro hended
  exact absurd (hlive.symm.trans hended) Bool.false_ne_true

theorem SharedSession.keeps_notify (h : session.notify = some after) : session.Keeps after := by
  obtain ⟨hwriting, hafter⟩ := Option.ite_none_right_eq_some.mp h
  cases hafter
  refine ⟨fun hs => ⟨fun _ => rfl, ?_⟩, fun hmine => ⟨hmine, .inl (.inr (.inl rfl))⟩⟩
  intro hstopped
  exact absurd ((hs.ended (hs.stopped hstopped).1).symm.trans hwriting) Bool.false_ne_true

theorem SharedSession.keeps_hangUp (h : session.hangUp = some after) : session.Keeps after := by
  obtain ⟨hidle, hafter⟩ := Option.ite_none_left_eq_some.mp h
  cases hafter
  refine ⟨fun hs => ⟨fun _ => eq_false_of_ne_true hidle, ?_⟩, fun hmine => ⟨hmine, ?_⟩⟩
  · exact fun hstopped => ⟨rfl, (hs.stopped hstopped).2⟩
  · exact (Classical.em session.Pending).imp_right fun hnone => ⟨hnone, rfl⟩

theorem SharedSession.keeps_takeNotifyRx {watcher : SessionWatcher} (hstopped : watcher ≠ .stopped)
    (h : session.takeNotifyRx watcher = some after) : session.Keeps after := by
  obtain ⟨huntaken, hafter⟩ := Option.ite_none_right_eq_some.mp h
  cases hafter
  refine ⟨fun hs => ⟨hs.ended, fun hw => absurd hw hstopped⟩, fun _ => ⟨?_, ?_⟩⟩
  · rw [huntaken]
    decide
  · by_cases hpending : session.Pending
    · refine .inl ?_
      unfold Pending at hpending ⊢
      rw [huntaken] at hpending
      rcases hpending with hwriting | hnotified | hdraining | hupdating
      · exact .inl hwriting
      · exact .inr (.inl hnotified)
      · cases hdraining
      · cases hupdating
    · exact .inr ⟨hpending, rfl⟩

theorem SharedSession.keeps_recvElsewhere (h : session.recvElsewhere = some after) :
    session.Keeps after := by
  obtain ⟨⟨helsewhere, _⟩, hafter⟩ := Option.ite_none_right_eq_some.mp h
  cases hafter
  exact ⟨fun hs => ⟨hs.ended, fun hstopped => ⟨(hs.stopped hstopped).1, rfl⟩⟩,
    fun hmine => absurd helsewhere hmine⟩

theorem SharedSession.keeps_recv (h : session.recv = some after) : session.Keeps after := by
  obtain ⟨hreceiving, h⟩ := Option.ite_none_right_eq_some.mp h
  have hmine : session.watcher ≠ .elsewhere := by
    rw [hreceiving]
    decide
  cases hnotified : session.notified with
  | true =>
    rw [if_pos hnotified] at h
    cases h
    exact ⟨fun hs => ⟨hs.ended, nofun⟩, fun _ => ⟨hmine, .inl (.inr (.inr (.inl rfl)))⟩⟩
  | false =>
    rw [if_neg (by simp [hnotified])] at h
    obtain ⟨hended, hafter⟩ := Option.ite_none_right_eq_some.mp h
    cases hafter
    refine ⟨fun hs => ⟨hs.ended, fun _ => ⟨hended, hnotified⟩⟩, fun _ => ⟨hmine, ?_⟩⟩
    by_cases hwriting : session.publishing = true
    · exact .inl (.inl hwriting)
    · refine .inr ⟨?_, rfl⟩
      unfold Pending
      rw [hnotified, hreceiving]
      simpa using hwriting

theorem SharedSession.keeps_tryRecv (h : session.tryRecv = some after) : session.Keeps after := by
  obtain ⟨hdraining, h⟩ := Option.ite_none_right_eq_some.mp h
  have hmine : session.watcher ≠ .elsewhere := by
    rw [hdraining]
    decide
  split at h
  · cases h
    exact ⟨fun hs => ⟨hs.ended, fun hstopped => ⟨(hs.stopped hstopped).1, rfl⟩⟩,
      fun _ => ⟨hmine, .inl (.inr (.inr (.inl hdraining)))⟩⟩
  · cases h
    exact ⟨fun hs => ⟨hs.ended, nofun⟩, fun _ => ⟨hmine, .inl (.inr (.inr (.inr rfl)))⟩⟩

end Sessions

section Windows

variable {V : Type} {M : Floats} {s t : TerminalView V} {session : SharedSession V}

/-- The window will be drawn anew: a flush is to come, or it is marked already. -/
def TerminalView.Refreshing (s : TerminalView V) : Prop :=
  s.pacer.control.frame_scheduled = true ∨ s.dirty = true

/-- A window that shows the terminal has read the viewport its active session has, or there is a
publication on its way to it. -/
structure TerminalView.Fresh (s : TerminalView V) : Prop where
  paced : s.pacer.Paced
  sound : ∀ id session, s.sessions id = some session → session.Sound
  known : ∀ id session, s.sessions id = some session → id < s.next_session_id
  active : s.active_session_id < s.next_session_id
  synced : s.terminal_shown = true → ∀ session, s.sessions s.active_session_id = some session →
    session.watcher ≠ .elsewhere →
      s.synced = some (s.active_session_id, session.viewport) ∨ session.Pending ∨ s.Refreshing

theorem TerminalView.fresh_start : ({} : TerminalView V).Fresh :=
  ⟨PacedWorkspace.paced_start, nofun, nofun, Nat.zero_lt_one, nofun⟩

theorem TerminalView.with_session_eq {id : Nat}
    {change : SharedSession V → Option (SharedSession V)} (h : s.with_session id change = some t) :
    ∃ session after, s.sessions id = some session ∧ change session = some after ∧
        t = { s with sessions := Function.update s.sessions id (some after) } := by
  unfold with_session at h
  rw [Option.bind_eq_bind, Option.bind_eq_some_iff] at h
  obtain ⟨session, hsession, h⟩ := h
  obtain ⟨after, hafter, ht⟩ := Option.bind_eq_some_iff.mp h
  cases ht
  exact ⟨session, after, hsession, hafter, rfl⟩

/-- What holds of the sessions holds after one is put in. -/
theorem TerminalView.sessions_update {P : Nat → SharedSession V → Prop}
    (h : ∀ id session, s.sessions id = some session → P id session) {id : Nat} (hid : P id session)
    (id' : Nat) (found : SharedSession V)
    (hfound : Function.update s.sessions id (some session) id' = some found) : P id' found := by
  by_cases hsame : id' = id
  · subst hsame
    cases (Function.update_self ..).symm.trans hfound
    exact hid
  · exact h id' found ((Function.update_of_ne hsame ..).symm.trans hfound)

theorem TerminalView.Fresh.with_session {id : Nat}
    {change : SharedSession V → Option (SharedSession V)} (h : s.Fresh)
    (hkeeps : ∀ session after, change session = some after → session.Keeps after)
    (ht : s.with_session id change = some t) : t.Fresh := by
  obtain ⟨session, after, hsession, hafter, rfl⟩ := with_session_eq ht
  have hchange := hkeeps session after hafter
  refine ⟨h.paced, sessions_update h.sound (hchange.sound (h.sound _ _ hsession)),
    sessions_update h.known (h.known _ _ hsession), h.active, ?_⟩
  intro hterminal found hfound hmine
  by_cases hid : s.active_session_id = id
  · rw [← hid] at hsession hfound
    cases (Function.update_self ..).symm.trans hfound
    obtain ⟨hmine, hcases⟩ := hchange.pending hmine
    rcases hcases with hpending | ⟨hnone, hsame⟩
    · exact .inr (.inl hpending)
    · rcases h.synced hterminal session hsession hmine with hsynced | hpending | hrefreshing
      · exact .inl (by rw [hsame]; exact hsynced)
      · exact absurd hpending hnone
      · exact .inr (.inr hrefreshing)
  · exact h.synced hterminal found ((Function.update_of_ne hid ..).symm.trans hfound) hmine

/-- A session that is launched is not the active one yet. -/
theorem TerminalView.Fresh.launch (h : s.Fresh) (viewport : V) :
    ({ s with
        next_session_id := s.next_session_id + 1
        sessions := Function.update s.sessions s.next_session_id (some { viewport }) } :
      TerminalView V).Fresh := by
  refine ⟨h.paced, sessions_update h.sound (SharedSession.sound_launch viewport),
    sessions_update (fun id session hid => Nat.lt_succ_of_lt (h.known id session hid))
      (Nat.lt_succ_self _), Nat.lt_succ_of_lt h.active, ?_⟩
  intro hterminal session hsession hmine
  have hold : s.active_session_id ≠ s.next_session_id := Nat.ne_of_lt h.active
  exact h.synced hterminal session ((Function.update_of_ne hold ..).symm.trans hsession) hmine

theorem TerminalView.request_repaint_frame (now : Nat) : ∃ pacer : PacedWorkspace,
    s.request_repaint now = { s with pacer } ∧ pacer.control.frame_scheduled = true ∧
      (s.pacer.Paced → pacer.Paced) := by
  obtain ⟨_, heq, hcontrol⟩ :=
    PacedWorkspace.request_repaint_eq (w := s.pacer) .TERMINAL_UPDATE now
  refine ⟨_, rfl, ?_, fun h => h.request (by decide) now⟩
  rw [heq]
  unfold PacedWorkspace.control
  rw [hcontrol]

/-- Whatever else has changed in a window that asks for a repaint, it draws once more. -/
theorem TerminalView.Fresh.requested (hpaced : s.pacer.Paced)
    (hsound : ∀ id session, s.sessions id = some session → session.Sound)
    (hknown : ∀ id session, s.sessions id = some session → id < s.next_session_id)
    (hactive : s.active_session_id < s.next_session_id) (now : Nat) :
    (s.request_repaint now).Fresh := by
  obtain ⟨pacer, heq, hscheduled, hkeeps⟩ := request_repaint_frame (s := s) now
  rw [heq]
  exact ⟨hkeeps hpaced, hsound, hknown, hactive, fun _ _ _ _ => .inr (.inr (.inl hscheduled))⟩

theorem TerminalView.Fresh.update (h : s.Fresh) {id : Nat} (now : Nat)
    (ht : (s.with_session id fun session =>
      if session.watcher = .updating then some { session with watcher := .receiving } else none) =
        some t) : (t.request_repaint now).Fresh := by
  obtain ⟨session, after, hsession, hafter, rfl⟩ := with_session_eq ht
  obtain ⟨_, hafter⟩ := Option.ite_none_right_eq_some.mp hafter
  cases hafter
  have hsound : ({ session with watcher := .receiving } : SharedSession V).Sound :=
    ⟨(h.sound _ _ hsession).ended, nofun⟩
  exact requested (s := { s with sessions := Function.update s.sessions id _ }) h.paced
    (sessions_update h.sound hsound) (sessions_update h.known (h.known _ _ hsession)) h.active now

/-- The pacer keeps the flush it has scheduled until it refreshes. -/
theorem TerminalView.Fresh.pace (h : s.Fresh) {a : PacedWorkspace.Step} (ht : s.pace M a = some t) :
    t.Fresh := by
  obtain ⟨pacer, hpacer, ht⟩ := Option.bind_eq_some_iff.mp ht
  cases ht
  refine ⟨h.paced.step hpacer, h.sound, h.known, h.active, ?_⟩
  intro hterminal session hsession hmine
  rcases h.synced hterminal session hsession hmine with hsynced | hpending | hrefreshing
  · exact .inl hsynced
  · exact .inr (.inl hpending)
  · refine .inr (.inr ?_)
    rcases hrefreshing with hscheduled | hdirty
    · rcases h.paced.nears hscheduled hpacer with hlt | ⟨_, hscheduled, _⟩
      · exact .inr (by simp [hlt])
      · exact .inl hscheduled
    · exact .inr (by simp [hdirty])

theorem TerminalView.Fresh.drawn (h : s.Fresh) : s.draw.Fresh := by
  refine ⟨h.paced, h.sound, h.known, h.active, ?_⟩
  intro hterminal session hsession _
  refine .inl ?_
  have hshown : s.terminal_shown = true := hterminal
  have hactive : s.sessions s.active_session_id = some session := hsession
  unfold draw active_viewport
  rw [hshown, hactive]
  rfl

theorem TerminalView.Fresh.step {a : Act V} (h : s.Fresh) (ht : s.step M a = some t) : t.Fresh := by
  cases a with
  | launch viewport =>
    cases ht
    exact h.launch viewport
  | publish id viewport => exact h.with_session (fun _ _ => SharedSession.keeps_publish) ht
  | notify id => exact h.with_session (fun _ _ => SharedSession.keeps_notify) ht
  | hangUp id => exact h.with_session (fun _ _ => SharedSession.keeps_hangUp) ht
  | takeNotifyRx id =>
    exact h.with_session (fun _ _ => SharedSession.keeps_takeNotifyRx (by decide)) ht
  | takenElsewhere id =>
    exact h.with_session (fun _ _ => SharedSession.keeps_takeNotifyRx (by decide)) ht
  | recvElsewhere id => exact h.with_session (fun _ _ => SharedSession.keeps_recvElsewhere) ht
  | recv id => exact h.with_session (fun _ _ => SharedSession.keeps_recv) ht
  | tryRecv id => exact h.with_session (fun _ _ => SharedSession.keeps_tryRecv) ht
  | update id now =>
    obtain ⟨u, hu, ht⟩ := Option.bind_eq_some_iff.mp ht
    cases ht
    exact h.update now hu
  | select id now =>
    obtain ⟨hid, ht⟩ := Option.ite_none_right_eq_some.mp ht
    cases ht
    exact requested (s := { s with active_session_id := id }) h.paced h.sound h.known hid now
  | openSurface terminal =>
    cases ht
    exact ⟨h.paced, h.sound, h.known, h.active, fun _ _ _ _ => .inr (.inr (.inr rfl))⟩
  | pace a => exact h.pace ht
  | draw =>
    cases ht
    exact h.drawn

/-- Nothing that follows a publication is under way: the worker is past its notification, the
watcher has received it and waits or is done, no flush is registered and nothing is to be drawn. -/
structure TerminalView.Settled (s : TerminalView V) (session : SharedSession V) : Prop where
  written : session.publishing = false
  received : session.notified = false
  watching : session.watcher = .receiving ∨ session.watcher = .stopped
  flushed : s.pacer.outstanding = 0
  drawn : s.dirty = false

/-- In any interleaving of workers, watchers, other windows and frames, a window on the terminal
that has settled has synchronised its surface with what its active session published last. -/
theorem settled_window_current {acts : List (Act V)} (hrun : TerminalView.run M {} acts = some s)
    (hactive : s.sessions s.active_session_id = some session) (hterminal : s.terminal_shown = true)
    (hsettled : s.Settled session) : s.synced = some (s.active_session_id, session.viewport) := by
  have hfresh : s.Fresh :=
    run_keeps (fun _ _ _ h ht => TerminalView.Fresh.step h ht) TerminalView.fresh_start hrun
  have hmine : session.watcher ≠ .elsewhere := by
    rcases hsettled.watching with hw | hw <;> rw [hw] <;> decide
  rcases hfresh.synced hterminal session hactive hmine with hsynced | hpending | hrefreshing
  · exact hsynced
  · rcases hpending with hwriting | hnotified | hdraining | hupdating
    · exact absurd (hsettled.written.symm.trans hwriting) Bool.false_ne_true
    · exact absurd (hsettled.received.symm.trans hnotified) Bool.false_ne_true
    · rcases hsettled.watching with hw | hw <;> cases hw.symm.trans hdraining
    · rcases hsettled.watching with hw | hw <;> cases hw.symm.trans hupdating
  · rcases hrefreshing with hscheduled | hdirty
    · have hflushes := hfresh.paced.flushes
      rw [hsettled.flushed, hscheduled] at hflushes
      cases hflushes
    · exact absurd (hsettled.drawn.symm.trans hdirty) Bool.false_ne_true

end Windows

section Example

/-- Two publications that the watcher takes as one, while another window's frame is drawn. -/
def published_twice : List (Act Nat) :=
  [.launch 10, .takeNotifyRx 1, .select 1 1, .publish 1 11, .notify 1, .recv 1, .draw,
    .publish 1 12, .notify 1, .tryRecv 1, .tryRecv 1, .update 1 2, .pace .tick, .pace (.callback 3),
    .draw]

theorem settled_window_current_twice :
    ∃ s, TerminalView.run PacedWorkspace.uncalibrated {} published_twice = some s ∧
      s.synced = some (1, 12) := by
  have hrun : ∃ s, TerminalView.run PacedWorkspace.uncalibrated {} published_twice = some s ∧
      s.sessions s.active_session_id = some ⟨12, false, false, false, .receiving⟩ ∧
      s.terminal_shown = true ∧ s.Settled ⟨12, false, false, false, .receiving⟩ ∧
      s.active_session_id = 1 :=
    ⟨_, rfl, rfl, rfl, ⟨rfl, rfl, .inl rfl, rfl, rfl⟩, rfl⟩
  obtain ⟨s, hs, hactive, hterminal, hsettled, hone⟩ := hrun
  exact ⟨s, hs, hone ▸ settled_window_current hs hactive hterminal hsettled⟩

end Example

end Seance.Ui.Wakeups
