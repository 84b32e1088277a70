import Mathlib
import Seance.Core.SessionLogs
import Seance.Lib.Recency

namespace Seance.Core
open Lib

abbrev SessionId := Nat

/-- `dyn TerminalSession`, as far as the registry and its callers look at it. -/
structure TerminalSession where
  id : SessionId
  title : String
  deriving DecidableEq, Repr

structure SessionOrigin where
  vault_id : String
  host_id : String
  host_label_at_connect : String
  deriving DecidableEq

structure SessionMetadataSummary where
  kind : SessionKind
  origin : Option SessionOrigin
  deriving DecidableEq

structure SessionMetadata where
  kind : SessionKind
  last_access_seq : Nat
  origin : Option SessionOrigin
  deriving DecidableEq

structure SessionRegistry where
  sessions : Map SessionId TerminalSession
  metadata_of : Map SessionId SessionMetadata

namespace SessionRegistry

variable (registry : SessionRegistry)

def default : SessionRegistry := ⟨.empty, .empty⟩

def insert (session : TerminalSession) (kind : SessionKind) (origin : Option SessionOrigin)
    (seq : Nat) : SessionRegistry where
  sessions := registry.sessions.insert session.id session
  metadata_of := registry.metadata_of.insert session.id ⟨kind, seq, origin⟩

def get (id : SessionId) : Option TerminalSession := registry.sessions.get id

/-- The handles in the order of their ids. -/
def list : List TerminalSession :=
  registry.sessions.values.mergeSort fun a b => decide (a.id ≤ b.id)

def kind (id : SessionId) : Option SessionKind :=
  (registry.metadata_of.get id).map SessionMetadata.kind

def metadata (id : SessionId) : Option SessionMetadataSummary :=
  (registry.metadata_of.get id).map fun info => ⟨info.kind, info.origin⟩

def touch (id : SessionId) (seq : Nat) : SessionRegistry :=
  match registry.metadata_of.get id with
  | some info =>
    { registry with
      metadata_of := registry.metadata_of.insert id { info with last_access_seq := seq } }
  | none => registry

def remove (id : SessionId) : Bool × SessionRegistry :=
  ((registry.sessions.get id).isSome,
    ⟨registry.sessions.remove id, registry.metadata_of.remove id⟩)

def most_recent_session_id : Option SessionId :=
  (maxByKey (fun pair => pair.2.last_access_seq) registry.metadata_of.rows).map Prod.fst

end SessionRegistry

inductive WindowTarget
  | MostRecentOrNew
  | NewLocal
  | Session (session_id : SessionId)
  deriving DecidableEq

/-- The sessions of `AppController`, with the counter that their accesses are numbered by. -/
structure AppSessions where
  sessions : SessionRegistry
  access_seq : Nat

namespace AppSessions

def new : AppSessions := ⟨.default, 0⟩

variable (s : AppSessions)

/-- `self.access_seq.wrapping_add(1)` -/
def bump_access_seq : AppSessions := { s with access_seq := (s.access_seq + 1) % 2 ^ 64 }

def register_session (session : TerminalSession) (kind : SessionKind)
    (origin : Option SessionOrigin) : AppSessions :=
  let bumped := s.bump_access_seq
  { bumped with sessions := bumped.sessions.insert session kind origin bumped.access_seq }

/-- With what `self.context.local.spawn` answers. -/
def spawn_local_session (spawned : Except String TerminalSession) :
    Except String TerminalSession × AppSessions :=
  match spawned with
  | .ok session => (.ok session, s.register_session session .Local none)
  | .error error => (.error error, s)

def touch_session (id : SessionId) : AppSessions :=
  let bumped := s.bump_access_seq
  { bumped with sessions := bumped.sessions.touch id bumped.access_seq }

def close_session (id : SessionId) : Bool × AppSessions :=
  let (removed, sessions) := s.sessions.remove id
  (removed, { s with sessions })

/-- The session a window starts with. -/
def attach (target : WindowTarget) (spawned : Except String TerminalSession) :
    Except String SessionId × AppSessions :=
  match target with
  | .MostRecentOrNew =>
    match s.sessions.most_recent_session_id with
    | some id => (.ok id, s)
    | none =>
      match s.spawn_local_session spawned with
      | (.ok session, after) => (.ok session.id, after)
      | (.error _, after) => (.error "failed to obtain session for window", after)
  | .NewLocal =>
    match s.spawn_local_session spawned with
    | (.ok session, after) => (.ok session.id, after)
    | (.error error, after) => (.error error, after)
  | .Session session_id =>
    match s.sessions.get session_id with
    | some session => (.ok session.id, s)
    | none => (.error "requested session is no longer available", s)

/-- `prepare_window`, as far as the sessions go. -/
def prepare_window (target : WindowTarget) (spawned : Except String TerminalSession) :
    Except String SessionId × AppSessions :=
  match s.attach target spawned with
  | (.ok attached_session_id, after) =>
    (.ok attached_session_id, after.touch_session attached_session_id)
  | (.error error, after) => (.error error, after)

end AppSessions

/-- A call of `AppControllerHandle` that concerns the sessions. -/
inductive SessionCall
  | spawn_local_session (spawned : Except String TerminalSession)
  | register_remote_session (session : TerminalSession) (origin : Option SessionOrigin)
  | touch_session (id : SessionId)
  | close_session (id : SessionId)
  | prepare_window (target : WindowTarget) (spawned : Except String TerminalSession)
  | list_sessions
  | session_kind (id : SessionId)
  | session_metadata (id : SessionId)
  | get_session (id : SessionId)
  | most_recent_session_id

inductive SessionReply
  | done
  | spawned (answer : Except String TerminalSession)
  | closed (removed : Bool)
  | attached (answer : Except String SessionId)
  | sessions (answer : List TerminalSession)
  | kind (answer : Option SessionKind)
  | metadata (answer : Option SessionMetadataSummary)
  | session (answer : Option TerminalSession)
  | recent (answer : Option SessionId)

def AppSessions.perform (s : AppSessions) : SessionCall → SessionReply × AppSessions
  | .spawn_local_session spawned =>
    let (answer, after) := s.spawn_local_session spawned
    (.spawned answer, after)
  | .register_remote_session session origin => (.done, s.register_session session .Remote origin)
  | .touch_session id => (.done, s.touch_session id)
  | .close_session id =>
    let (removed, after) := s.close_session id
    (.closed removed, after)
  | .prepare_window target spawned =>
    let (answer, after) := s.prepare_window target spawned
    (.attached answer, after)
  | .list_sessions => (.sessions s.sessions.list, s)
  | .session_kind id => (.kind (s.sessions.kind id), s)
  | .session_metadata id => (.metadata (s.sessions.metadata id), s)
  | .get_session id => (.session (s.sessions.get id), s)
  | .most_recent_session_id => (.recent s.sessions.most_recent_session_id, s)

/-- A session with what is known about it. -/
structure RecentSession where
  session : TerminalSession
  summary : SessionMetadataSummary

/-- What the registry is for: the sessions that are open, the one used last in front. -/
abbrev RecentSessions := List RecentSession

namespace RecentSessions

variable (recent : RecentSessions)

def ids : List SessionId := recent.map fun entry => entry.session.id

def lookup (id : SessionId) : Option RecentSession :=
  recent.find? fun entry => decide (entry.session.id = id)

def close (id : SessionId) : RecentSessions := recent.filter fun entry => entry.session.id ≠ id

def push (entry : RecentSession) : RecentSessions := entry :: close recent entry.session.id

def use (id : SessionId) : RecentSessions :=
  match lookup recent id with
  | some entry => push recent entry
  | none => recent

def spawn (spawned : Except String TerminalSession) : RecentSessions :=
  match spawned with
  | .ok session => push recent ⟨session, .Local, none⟩
  | .error _ => recent

/-- The session that a window is given comes to the front, whether it was there or is new. -/
def attach (target : WindowTarget) (spawned : Except String TerminalSession) :
    Except String SessionId × RecentSessions :=
  match target, recent, spawned with
  | .MostRecentOrNew, entry :: rest, _ => (.ok entry.session.id, entry :: rest)
  | .MostRecentOrNew, [], .ok session => (.ok session.id, spawn [] (.ok session))
  | .MostRecentOrNew, [], .error _ => (.error "failed to obtain session for window", [])
  | .NewLocal, recent, .ok session => (.ok session.id, spawn recent (.ok session))
  | .NewLocal, recent, .error error => (.error error, recent)
  | .Session id, recent, _ =>
    if (lookup recent id).isSome then (.ok id, use recent id)
    else (.error "requested session is no longer available", recent)

def perform : SessionCall → SessionReply × RecentSessions
  | .spawn_local_session spawned => (.spawned spawned, spawn recent spawned)
  | .register_remote_session session origin =>
    (.done, push recent ⟨session, .Remote, origin⟩)
  | .touch_session id => (.done, use recent id)
  | .close_session id => (.closed (lookup recent id).isSome, close recent id)
  | .prepare_window target spawned =>
    let (answer, after) := attach recent target spawned
    (.attached answer, after)
  | .list_sessions =>
    (.sessions ((recent.map RecentSession.session).mergeSort fun a b => decide (a.id ≤ b.id)),
      recent)
  | .session_kind id => (.kind ((lookup recent id).map fun entry => entry.summary.kind), recent)
  | .session_metadata id => (.metadata ((lookup recent id).map RecentSession.summary), recent)
  | .get_session id => (.session ((lookup recent id).map RecentSession.session), recent)
  | .most_recent_session_id => (.recent (ids recent).head?, recent)

end RecentSessions

namespace RecentSessions

variable {recent : RecentSessions} {entry : RecentSession} {id : SessionId}

theorem lookup_id (h : lookup recent id = some entry) : entry.session.id = id := by
  simpa using List.find?_some h

theorem lookup_mem (h : lookup recent id = some entry) : entry ∈ recent :=
  List.mem_of_find?_eq_some h

theorem lookup_close (q : SessionId) :
    lookup (close recent id) q = if q = id then none else lookup recent q := by
  unfold lookup close
  rw [List.find?_filter]
  split
  · rename_i hq
    rw [List.find?_eq_none]
    intro other _
    simp [hq]
  · rename_i hq
    congr 1
    funext other
    by_cases hother : other.session.id = q
    · simp [hother, hq]
    · simp [hother]

theorem lookup_push (q : SessionId) :
    lookup (push recent entry) q =
      if q = entry.session.id then some entry else lookup recent q := by
  unfold push
  by_cases hq : q = entry.session.id
  · rw [if_pos hq, hq]
    exact List.find?_cons_of_pos (by simp)
  · have hcons : lookup (entry :: close recent entry.session.id) q =
        lookup (close recent entry.session.id) q :=
      List.find?_cons_of_neg (by simpa using Ne.symm hq)
    rw [hcons, lookup_close, if_neg hq, if_neg hq]

theorem lookup_use (q : SessionId) : lookup (use recent id) q = lookup recent q := by
  unfold use
  split
  · rename_i entry hentry
    rw [lookup_push]
    split
    · rename_i hq
      rw [hq, lookup_id hentry, hentry]
    · rfl
  · rfl

theorem ids_close : ids (close recent id) = (ids recent).filter (· ≠ id) := by
  unfold ids close
  rw [List.filter_map]
  rfl

theorem ids_push : ids (push recent entry) = promote entry.session.id (ids recent) := by
  unfold push promote
  rw [← ids_close]
  rfl

theorem close_of_not_mem (h : id ∉ ids recent) : close recent id = recent := by
  refine List.filter_eq_self.mpr fun other hother => ?_
  have hne : other.session.id ≠ id := by
    rintro rfl
    exact h (List.mem_map_of_mem hother)
  simpa using hne

/-- What is in front stays there when it is used. -/
theorem use_front (h : (ids (entry :: recent)).Nodup) :
    use (entry :: recent) entry.session.id = entry :: recent := by
  have hlookup : lookup (entry :: recent) entry.session.id = some entry :=
    List.find?_cons_of_pos (by simp)
  have hclose : close (entry :: recent) entry.session.id = recent := by
    have hfront : close (entry :: recent) entry.session.id = close recent entry.session.id :=
      List.filter_cons_of_neg (by simp)
    rw [hfront]
    exact close_of_not_mem (List.nodup_cons.mp h).1
  unfold use
  rw [hlookup]
  exact congrArg (entry :: ·) hclose

theorem lookup_of_mem (h : (ids recent).Nodup) (hmem : entry ∈ recent) :
    lookup recent entry.session.id = some entry := by
  induction recent with
  | nil => cases hmem
  | cons first rest ih =>
    obtain ⟨hfirst, hrest⟩ := List.nodup_cons.mp h
    rcases List.mem_cons.mp hmem with rfl | hmem
    · exact List.find?_cons_of_pos (by simp)
    · have hne : first.session.id ≠ entry.session.id := by
        intro heq
        refine hfirst ?_
        dsimp only
        rw [heq]
        exact List.mem_map_of_mem hmem
      have hcons : lookup (first :: rest) entry.session.id = lookup rest entry.session.id :=
        List.find?_cons_of_neg (by simpa using hne)
      rw [hcons]
      exact ih hrest hmem

end RecentSessions

open RecentSessions

/-- The registry knows of every session what the list does, and its stamps put them in the order
of the list. -/
structure Shows (s : AppSessions) (recent : RecentSessions) : Prop where
  ranked : Ranked (fun id => (s.sessions.metadata_of.get id).map SessionMetadata.last_access_seq)
    s.access_seq (ids recent)
  session : ∀ id, s.sessions.get id = (lookup recent id).map RecentSession.session
  metadata : ∀ id, s.sessions.metadata id = (lookup recent id).map RecentSession.summary

section Refinement

variable {s : AppSessions} {recent : RecentSessions}

theorem shows_new : Shows .new [] := ⟨ranked_empty 0, fun _ => rfl, fun _ => rfl⟩

theorem Shows.most_recent (h : Shows s recent) :
    s.sessions.most_recent_session_id = (ids recent).head? :=
  h.ranked.latest

theorem Shows.kind (h : Shows s recent) (id : SessionId) :
    s.sessions.kind id = (lookup recent id).map fun entry => entry.summary.kind := by
  have hkind : s.sessions.kind id = (s.sessions.metadata id).map SessionMetadataSummary.kind := by
    unfold SessionRegistry.kind SessionRegistry.metadata
    rw [Option.map_map]
    rfl
  rw [hkind, h.metadata, Option.map_map]
  rfl

/-- The handles in the map are those of the list. -/
theorem Shows.perm (h : Shows s recent) :
    s.sessions.sessions.values.Perm (recent.map RecentSession.session) := by
  have hid : ∀ pair ∈ s.sessions.sessions.rows, pair.2.id = pair.1 := by
    intro pair hpair
    have hget := Map.mem_rows.mp hpair
    have hlookup := h.session pair.1
    unfold SessionRegistry.get at hlookup
    rw [hget] at hlookup
    obtain ⟨entry, hentry, heq⟩ := Option.map_eq_some_iff.mp hlookup.symm
    rw [← heq]
    exact lookup_id hentry
  have hvalues : s.sessions.sessions.values.Nodup := by
    refine List.Nodup.of_map TerminalSession.id ?_
    have hkeys : s.sessions.sessions.values.map TerminalSession.id = s.sessions.sessions.keys := by
      unfold Map.values Map.keys
      rw [List.map_map]
      exact List.map_congr_left hid
    rw [hkeys]
    exact s.sessions.sessions.unique
  have hrecent : (recent.map RecentSession.session).Nodup := by
    refine List.Nodup.of_map TerminalSession.id ?_
    rw [List.map_map]
    exact h.ranked.nodup
  refine (List.perm_ext_iff_of_nodup hvalues hrecent).mpr fun session => ?_
  unfold Map.values
  rw [List.mem_map, List.mem_map]
  constructor
  · rintro ⟨pair, hpair, rfl⟩
    have hget := h.session pair.1
    unfold SessionRegistry.get at hget
    rw [Map.mem_rows.mp hpair] at hget
    obtain ⟨entry, hentry, heq⟩ := Option.map_eq_some_iff.mp hget.symm
    exact ⟨entry, lookup_mem hentry, heq⟩
  · rintro ⟨entry, hentry, rfl⟩
    have hget := h.session entry.session.id
    rw [lookup_of_mem h.ranked.nodup hentry] at hget
    exact ⟨(entry.session.id, entry.session), Map.mem_rows.mpr hget, rfl⟩

theorem Shows.list (h : Shows s recent) :
    s.sessions.list =
      (recent.map RecentSession.session).mergeSort fun a b => decide (a.id ≤ b.id) := by
  unfold SessionRegistry.list
  have htrans : ∀ a b c : TerminalSession, decide (a.id ≤ b.id) = true →
      decide (b.id ≤ c.id) = true → decide (a.id ≤ c.id) = true := by
    intro a b c hab hbc
    simp only [decide_eq_true_eq] at hab hbc ⊢
    exact hab.trans hbc
  have htotal : ∀ a b : TerminalSession,
      (decide (a.id ≤ b.id) || decide (b.id ≤ a.id)) = true := by
    intro a b
    simpa using Nat.le_total a.id b.id
  have hsorted := fun l : List TerminalSession => List.pairwise_mergeSort htrans htotal l
  have hinj := List.inj_on_of_nodup_map (f := TerminalSession.id)
    (l := recent.map RecentSession.session) (by rw [List.map_map]; exact h.ranked.nodup)
  refine List.Perm.eq_of_pairwise (fun a b ha hb hab hba => ?_) (hsorted _) (hsorted _)
    (((List.mergeSort_perm _ _).trans h.perm).trans (List.mergeSort_perm _ _).symm)
  have ha := h.perm.mem_iff.mp (List.mem_mergeSort.mp ha)
  have hb := List.mem_mergeSort.mp hb
  simp only [decide_eq_true_eq] at hab hba
  exact hinj ha hb (Nat.le_antisymm hab hba)

theorem bump_access_seq_eq (hroom : s.access_seq + 1 < 2 ^ 64) :
    s.bump_access_seq = { s with access_seq := s.access_seq + 1 } := by
  unfold AppSessions.bump_access_seq
  rw [Nat.mod_eq_of_lt hroom]

theorem Shows.register (h : Shows s recent) (hroom : s.access_seq + 1 < 2 ^ 64)
    (session : TerminalSession) (kind : SessionKind) (origin : Option SessionOrigin) :
    Shows (s.register_session session kind origin) (push recent ⟨session, kind, origin⟩) := by
  unfold AppSessions.register_session
  rw [bump_access_seq_eq hroom]
  refine ⟨?_, fun q => ?_, fun q => ?_⟩
  · rw [ids_push]
    refine h.ranked.stamped (Nat.lt_succ_self _) fun q => ?_
    dsimp only [SessionRegistry.insert]
    rw [Map.get_insert]
    split
    · rfl
    · rfl
  · rw [lookup_push]
    unfold SessionRegistry.get SessionRegistry.insert
    dsimp only
    rw [Map.get_insert]
    split
    · rfl
    · exact h.session q
  · rw [lookup_push]
    unfold SessionRegistry.metadata SessionRegistry.insert
    dsimp only
    rw [Map.get_insert]
    split
    · rfl
    · exact h.metadata q

theorem Shows.touch (h : Shows s recent) (hroom : s.access_seq + 1 < 2 ^ 64) (id : SessionId) :
    Shows (s.touch_session id) (use recent id) := by
  unfold AppSessions.touch_session SessionRegistry.touch
  rw [bump_access_seq_eq hroom]
  dsimp only
  have hmeta := h.metadata id
  unfold SessionRegistry.metadata at hmeta
  split
  · rename_i info hinfo
    rw [hinfo, Option.map_some] at hmeta
    obtain ⟨entry, hentry, hsummary⟩ := Option.map_eq_some_iff.mp hmeta.symm
    have hid := lookup_id hentry
    refine ⟨?_, fun q => ?_, fun q => ?_⟩
    · have hids : ids (use recent id) = promote id (ids recent) := by
        unfold use
        rw [hentry]
        dsimp only
        rw [ids_push, hid]
      rw [hids]
      refine h.ranked.stamped (Nat.lt_succ_self _) fun q => ?_
      rw [Map.get_insert]
      split
      · rfl
      · rfl
    · rw [lookup_use]
      exact h.session q
    · rw [lookup_use, ← h.metadata q]
      unfold SessionRegistry.metadata
      dsimp only
      rw [Map.get_insert]
      split
      · rename_i hq
        rw [hq, hinfo]
        rfl
      · rfl
  · rename_i hnone
    rw [hnone] at hmeta
    have hlookup : lookup recent id = none := Option.map_eq_none_iff.mp hmeta.symm
    have huse : use recent id = recent := by
      unfold use
      rw [hlookup]
    rw [huse]
    exact ⟨h.ranked.raise (Nat.le_succ _), h.session, h.metadata⟩

theorem Shows.closed (h : Shows s recent) (id : SessionId) :
    (s.close_session id).1 = (lookup recent id).isSome ∧
      Shows (s.close_session id).2 (close recent id) := by
  unfold AppSessions.close_session SessionRegistry.remove
  dsimp only
  refine ⟨?_, ?_, fun q => ?_, fun q => ?_⟩
  · have hget := h.session id
    unfold SessionRegistry.get at hget
    rw [hget, Option.isSome_map]
  · rw [ids_close]
    refine h.ranked.forgotten fun q => ?_
    rw [Map.get_remove]
    split
    · rfl
    · rfl
  · rw [lookup_close]
    unfold SessionRegistry.get
    dsimp only
    rw [Map.get_remove]
    split
    · rfl
    · exact h.session q
  · rw [lookup_close]
    unfold SessionRegistry.metadata
    dsimp only
    rw [Map.get_remove]
    split
    · rfl
    · exact h.metadata q

theorem Shows.attach (h : Shows s recent) (hroom : s.access_seq + 2 < 2 ^ 64)
    (target : WindowTarget) (spawned : Except String TerminalSession) :
    (s.prepare_window target spawned).1 = (RecentSessions.attach recent target spawned).1 ∧
      Shows (s.prepare_window target spawned).2 (RecentSessions.attach recent target spawned).2 ∧
      (s.prepare_window target spawned).2.access_seq ≤ s.access_seq + 2 := by
  have hspawn : ∀ session, Shows ((s.register_session session .Local none).touch_session session.id)
      (push recent ⟨session, .Local, none⟩) ∧
      ((s.register_session session .Local none).touch_session session.id).access_seq ≤
        s.access_seq + 2 := by
    intro session
    have hseq : (s.register_session session .Local none).access_seq ≤ s.access_seq + 1 :=
      Nat.mod_le _ _
    have hnew := h.register (by omega) session .Local none
    refine ⟨?_, (Nat.mod_le _ _).trans (Nat.add_le_add_right hseq 1)⟩
    have htouched := hnew.touch (by omega) session.id
    rw [push, use_front hnew.ranked.nodup] at htouched
    exact htouched
  have htouch : ∀ id, (s.touch_session id).access_seq ≤ s.access_seq + 2 :=
    fun id => (Nat.mod_le _ _).trans (Nat.le_succ _)
  unfold AppSessions.prepare_window AppSessions.attach AppSessions.spawn_local_session
  cases target with
  | MostRecentOrNew =>
    dsimp only
    rw [h.most_recent]
    cases recent with
    | nil =>
      cases spawned with
      | ok session => exact ⟨rfl, hspawn session⟩
      | error error => exact ⟨rfl, h, Nat.le_add_right _ _⟩
    | cons entry rest =>
      refine ⟨rfl, ?_, htouch entry.session.id⟩
      have htouched := h.touch (by omega) entry.session.id
      rw [use_front h.ranked.nodup] at htouched
      exact htouched
  | NewLocal =>
    cases spawned with
    | ok session => exact ⟨rfl, hspawn session⟩
    | error error => exact ⟨rfl, h, Nat.le_add_right _ _⟩
  | Session id =>
    dsimp only
    rw [h.session]
    unfold RecentSessions.attach
    dsimp only
    cases hlookup : lookup recent id with
    | none => exact ⟨rfl, h, Nat.le_add_right _ _⟩
    | some entry =>
      have hid := lookup_id hlookup
      simp only [Option.map_some, Option.isSome_some, if_true, hid]
      exact ⟨trivial, h.touch (by omega) id, htouch id⟩

theorem Shows.perform (h : Shows s recent) (hroom : s.access_seq + 2 < 2 ^ 64)
    (call : SessionCall) :
    (s.perform call).1 = (RecentSessions.perform recent call).1 ∧
      Shows (s.perform call).2 (RecentSessions.perform recent call).2 ∧
      (s.perform call).2.access_seq ≤ s.access_seq + 2 := by
  have hstep : ∀ n, (s.access_seq + 1) % n ≤ s.access_seq + 2 :=
    fun n => (Nat.mod_le _ _).trans (Nat.le_succ _)
  have hsame : s.access_seq ≤ s.access_seq + 2 := Nat.le_add_right _ _
  cases call with
  | spawn_local_session spawned =>
    cases spawned with
    | ok session => exact ⟨rfl, h.register (by omega) session .Local none, hstep _⟩
    | error error => exact ⟨rfl, h, hsame⟩
  | register_remote_session session origin =>
    exact ⟨rfl, h.register (by omega) session .Remote origin, hstep _⟩
  | touch_session id => exact ⟨rfl, h.touch (by omega) id, hstep _⟩
  | close_session id =>
    obtain ⟨hremoved, hclosed⟩ := h.closed id
    exact ⟨congrArg SessionReply.closed hremoved, hclosed, hsame⟩
  | prepare_window target spawned =>
    obtain ⟨hanswer, hafter, hseq⟩ := h.attach hroom target spawned
    exact ⟨congrArg SessionReply.attached hanswer, hafter, hseq⟩
  | list_sessions => exact ⟨congrArg SessionReply.sessions h.list, h, hsame⟩
  | session_kind id => exact ⟨congrArg SessionReply.kind (h.kind id), h, hsame⟩
  | session_metadata id => exact ⟨congrArg SessionReply.metadata (h.metadata id), h, hsame⟩
  | get_session id => exact ⟨congrArg SessionReply.session (h.session id), h, hsame⟩
  | most_recent_session_id => exact ⟨congrArg SessionReply.recent h.most_recent, h, hsame⟩

end Refinement

/-- What a run of calls is answered. -/
def replies {σ : Type} (perform : σ → SessionCall → SessionReply × σ) (s : σ)
    (calls : List SessionCall) : List SessionReply :=
  emitted (fun s call => (perform s call).2) (fun s call => [(perform s call).1]) s calls

theorem Shows.replies {s : AppSessions} {recent : RecentSessions} (h : Shows s recent)
    (calls : List SessionCall) (hroom : s.access_seq + 2 * calls.length < 2 ^ 64) :
    replies AppSessions.perform s calls = Core.replies RecentSessions.perform recent calls := by
  induction calls generalizing s recent with
  | nil => rfl
  | cons call rest ih =>
    rw [List.length_cons] at hroom
    obtain ⟨hreply, hafter, hseq⟩ := h.perform (by omega) call
    have hrest := ih hafter (by omega)
    unfold Core.replies at hrest ⊢
    simp only [emitted]
    rw [hreply, hrest]

/-- Callers cannot tell the registry from the list of the sessions in the order of their last use, as
long as the access counter does not overflow: a call that prepares a window with a new session counts
two uses. -/
theorem sessions_in_order_of_use (calls : List SessionCall) (h : 2 * calls.length < 2 ^ 64) :
    replies AppSessions.perform .new calls = replies RecentSessions.perform [] calls :=
  shows_new.replies calls (by simpa [AppSessions.new] using h)

/-- Of two sessions the older one is used again and the newer one closed. -/
theorem sessions_in_order_of_use_two :
    replies AppSessions.perform .new
        [.spawn_local_session (.ok ⟨1, "local"⟩), .register_remote_session ⟨2, "db"⟩ none,
          .touch_session 1, .close_session 2, .prepare_window .MostRecentOrNew (.error "no pty")] =
      [.spawned (.ok ⟨1, "local"⟩), .done, .done, .closed true, .attached (.ok 1)] :=
  (sessions_in_order_of_use _ (by decide)).trans rfl

end Seance.Core
