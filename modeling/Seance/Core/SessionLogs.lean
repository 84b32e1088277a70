import Mathlib
import Seance.Lib.Map
import Seance.Lib.Runs

namespace Seance.Core
open Lib

inductive SessionKind
  | Local
  | Remote
  deriving DecidableEq

/-- Seconds since the epoch; times are counted in nanoseconds. -/
def system_time_seconds (time : Int) : Nat := (time / 10 ^ 9).toNat

def sanitize_path_component (value : String) : String :=
  let sanitized := value.toList.map fun ch =>
    if ch.isAlphanum || ch = '-' || ch = '_' then ch else '-'
  let trimmed := (sanitized.dropWhile (· = '-')).rdropWhile (· = '-')
  if trimmed = [] then "session" else String.ofList trimmed

/-- A session with the place of its writer in the events file, once it has created that file. -/
structure LoggedSession where
  kind : SessionKind
  title : String
  host_label : Option String
  started_at : Int
  position : Option Nat
  deriving DecidableEq

namespace LoggedSession

variable (session : LoggedSession)

def session_dir : String :=
  sanitize_path_component session.title ++ "-" ++ (system_time_seconds session.started_at).repr

def events_path : String := session.session_dir ++ "/events.jsonl"

/-- What the name of the directory says about the session. -/
def stamp : String × Nat :=
  (sanitize_path_component session.title, system_time_seconds session.started_at)

end LoggedSession

/-- The sessions whose writers have been spawned, and the files below the root of the logs. Two paths
are one file only if they are equal: the file system tells upper case from lower case. -/
structure SessionLogs where
  sessions : List LoggedSession
  files : Map String (List UInt8)

inductive LogAct
  | start (kind : SessionKind) (title : String) (host_label : Option String) (started_at : Int)
  /-- the writer creates its file -/
  | create (session : Nat)
  | write (session : Nat) (bytes : List UInt8)

/-- A file after bytes have been written to it at a position. -/
def write_at (content : List UInt8) (position : Nat) (bytes : List UInt8) : List UInt8 :=
  content.take position ++ List.replicate (position - content.length) 0 ++ bytes ++
    content.drop (position + bytes.length)

namespace SessionLogs

def new : SessionLogs := ⟨[], Table.empty⟩

def step (logs : SessionLogs) : LogAct → Option SessionLogs
  | .start kind title host_label started_at =>
    some { logs with sessions := logs.sessions ++ [⟨kind, title, host_label, started_at, none⟩] }
  | .create i =>
    match logs.sessions[i]? with
    | some session =>
      if session.position.isSome then none
      else
        some { logs with
          sessions := logs.sessions.set i { session with position := some 0 }
          files := logs.files.insert session.events_path [] }
    | none => none
  | .write i bytes =>
    match logs.sessions[i]? with
    | some session =>
      session.position.bind fun position =>
        (logs.files.get session.events_path).map fun content =>
          { logs with
            sessions := logs.sessions.set i { session with
              position := some (position + bytes.length) }
            files := logs.files.insert session.events_path (write_at content position bytes) }
    | none => none

/-- No two writers have created the same file. -/
def Distinct (logs : SessionLogs) : Prop :=
  ∀ (i j : Nat) (s t : LoggedSession), logs.sessions[i]? = some s → logs.sessions[j]? = some t →
    s.position.isSome = true → t.position.isSome = true → s.events_path = t.events_path → i = j

/-- A session that is started, or creates its file, leaves the files of the others alone. -/
def Untruncated (logs : SessionLogs) : LogAct → Prop
  | .write _ _ => True
  | .start kind title host_label started_at => ∀ logs',
      logs.step (.start kind title host_label started_at) = some logs' → logs'.files = logs.files
  | .create i => ∀ logs', logs.step (.create i) = some logs' → ∀ j t, j ≠ i →
      logs.sessions[j]? = some t → t.position.isSome = true →
      logs'.files.get t.events_path = logs.files.get t.events_path

/-- A file is created only by a session whose sanitized title and second of its start are not
together those of one that has created its file. Titles that differ in the case of a letter count as
different, as their paths do. -/
def Apart (logs : SessionLogs) : LogAct → Prop
  | .create i => ∀ s ∈ logs.sessions[i]?, ∀ t ∈ logs.sessions, t.position.isSome = true →
      s.stamp ≠ t.stamp
  | _ => True

instance (logs : SessionLogs) (act : LogAct) : Decidable (logs.Apart act) := by
  unfold Apart
  split <;> infer_instance

end SessionLogs

section Names

theorem not_mem_repr (n : Nat) : '-' ∉ n.repr.toList := by
  intro h
  rw [Nat.toList_repr] at h
  have hdigit := Nat.isDigit_of_mem_toDigits (by decide) (by decide) h
  revert hdigit
  decide

/-- The second is what stands behind the last dash of a directory's name. -/
theorem session_dir_inj {s t : LoggedSession} (h : s.session_dir = t.session_dir) :
    s.stamp = t.stamp := by
  have hlist := congrArg (fun dir => dir.toList.reverse) h
  simp only [LoggedSession.session_dir, String.toList_append, List.reverse_append,
    String.reduceToList, List.reverse_singleton, List.singleton_append] at hlist
  have hsplit : ∀ n : Nat, ∀ rest : List Char,
      (n.repr.toList.reverse ++ '-' :: rest).takeWhile (· ≠ '-') = n.repr.toList.reverse := by
    intro n rest
    rw [List.takeWhile_append_of_pos]
    · simp
    · intro c hc
      rw [decide_eq_true_iff]
      rintro rfl
      exact not_mem_repr n (List.mem_reverse.mp hc)
  have hsecond := congrArg (List.takeWhile (· ≠ '-')) hlist
  rw [hsplit, hsplit] at hsecond
  rw [hsecond, List.append_cancel_left_eq, List.cons.injEq] at hlist
  have htitle := String.toList_injective (List.reverse_injective hlist.2)
  have hdigits := List.reverse_injective hsecond
  rw [Nat.toList_repr, Nat.toList_repr] at hdigits
  have hread := congrArg (Nat.ofDigitChars 10 · 0) hdigits
  rw [Nat.ofDigitChars_ten_toDigits, Nat.ofDigitChars_ten_toDigits] at hread
  exact Prod.ext htitle hread

theorem events_path_eq_iff {s t : LoggedSession} :
    s.events_path = t.events_path ↔ s.stamp = t.stamp := by
  unfold LoggedSession.events_path
  rw [String.append_left_inj]
  refine ⟨session_dir_inj, fun h => ?_⟩
  obtain ⟨htitle, hsecond⟩ := Prod.mk.inj h
  unfold LoggedSession.session_dir
  rw [htitle, hsecond]

end Names

namespace SessionLogs

section Steps

variable {logs logs' : SessionLogs}

/-- Only the creation of a file opens one. -/
theorem create_ok {i : Nat} (h : logs.step (.create i) = some logs') :
    ∃ session, logs.sessions[i]? = some session ∧ session.position = none ∧
      logs' =
        { sessions := logs.sessions.set i { session with position := some 0 }
          files := logs.files.insert session.events_path [] } := by
  unfold step at h
  dsimp only at h
  split at h
  · rename_i session hsession
    split at h
    · cases h
    · rename_i hposition
      cases h
      exact ⟨session, hsession, Option.not_isSome_iff_eq_none.mp hposition, rfl⟩
  · cases h

theorem write_ok {i : Nat} {bytes : List UInt8} (h : logs.step (.write i bytes) = some logs') :
    ∃ session position, logs.sessions[i]? = some session ∧ session.position = some position ∧
      logs'.sessions = logs.sessions.set i { session with
        position := some (position + bytes.length) } := by
  unfold step at h
  dsimp only at h
  split at h
  · rename_i session hsession
    obtain ⟨position, hposition, h⟩ := Option.bind_eq_some_iff.mp h
    obtain ⟨content, -, rfl⟩ := Option.map_eq_some_iff.mp h
    exact ⟨session, position, hsession, hposition, rfl⟩
  · cases h

/-- A session that is there in a list with one place set stands at that place or was there. -/
theorem getElem?_set_cases {sessions : List LoggedSession} {i j : Nat} {s t : LoggedSession}
    (h : (sessions.set i s)[j]? = some t) : (j = i ∧ t = s) ∨ (j ≠ i ∧ sessions[j]? = some t) := by
  by_cases hij : j = i
  · subst j
    obtain ⟨hlt, ht⟩ := List.getElem?_eq_some_iff.mp h
    rw [List.getElem_set_self] at ht
    exact .inl ⟨rfl, ht.symm⟩
  · rw [List.getElem?_set_ne (Ne.symm hij)] at h
    exact .inr ⟨hij, h⟩

theorem Distinct.start (h : logs.Distinct) (session : LoggedSession)
    (hposition : session.position = none) (files : Map String (List UInt8)) :
    Distinct ⟨logs.sessions ++ [session], files⟩ := by
  have hold : ∀ (i : Nat) (t : LoggedSession), (logs.sessions ++ [session])[i]? = some t →
      t.position.isSome = true → logs.sessions[i]? = some t := by
    intro i t ht hsome
    rcases Nat.lt_or_ge i logs.sessions.length with hlt | hge
    · rwa [List.getElem?_append_left hlt] at ht
    · rw [List.getElem?_append_right hge] at ht
      rw [List.mem_singleton.mp (List.mem_of_getElem? ht), hposition] at hsome
      cases hsome
  intro i j s t hs ht hsopen htopen hpath
  exact h i j s t (hold i s hs hsopen) (hold j t ht htopen) hsopen htopen hpath

theorem Distinct.write (h : logs.Distinct) {i : Nat} {session : LoggedSession} {position : Nat}
    (hsession : logs.sessions[i]? = some session) (hposition : session.position = some position)
    (next : Nat) (files : Map String (List UInt8)) :
    Distinct ⟨logs.sessions.set i { session with position := some next }, files⟩ := by
  have hold : ∀ (j : Nat) (t : LoggedSession),
      (logs.sessions.set i { session with position := some next })[j]? = some t →
      t.position.isSome = true →
      ∃ u, logs.sessions[j]? = some u ∧ u.position.isSome = true ∧
        u.events_path = t.events_path := by
    intro j t ht hopen
    rcases getElem?_set_cases ht with ⟨rfl, rfl⟩ | ⟨-, ht⟩
    · exact ⟨session, hsession, by rw [hposition]; rfl, rfl⟩
    · exact ⟨t, ht, hopen, rfl⟩
  intro j k s t hs ht hsopen htopen hpath
  obtain ⟨s', hs', hsopen', hspath⟩ := hold j s hs hsopen
  obtain ⟨t', ht', htopen', htpath⟩ := hold k t ht htopen
  exact h j k s' t' hs' ht' hsopen' htopen' (hspath.trans (hpath.trans htpath.symm))

/-- After a file has been created no two writers share one exactly if it was not there yet. -/
theorem Distinct.create (h : logs.Distinct) {i : Nat} {session : LoggedSession}
    (hsession : logs.sessions[i]? = some session) (hposition : session.position = none)
    (files : Map String (List UInt8)) :
    Distinct ⟨logs.sessions.set i { session with position := some 0 }, files⟩ ↔
      logs.Apart (.create i) := by
  have hi := (List.getElem?_eq_some_iff.mp hsession).1
  have hself : (logs.sessions.set i { session with position := some 0 })[i]? =
      some { session with position := some 0 } := List.getElem?_set_self hi
  constructor
  · intro hdistinct s hs t ht hopen hstamp
    obtain rfl : session = s := Option.some.inj (hsession.symm.trans hs)
    obtain ⟨j, hj⟩ := List.mem_iff_getElem?.mp ht
    have hne : j ≠ i := by
      rintro rfl
      rw [Option.some.inj (hj.symm.trans hsession), hposition] at hopen
      cases hopen
    have hpath := events_path_eq_iff.mpr hstamp.symm
    rw [← List.getElem?_set_ne hne.symm] at hj
    exact hne (hdistinct j i t _ hj hself hopen rfl hpath)
  · intro hapart
    have hother : ∀ (j : Nat) (t : LoggedSession), logs.sessions[j]? = some t →
        t.position.isSome = true → session.events_path ≠ t.events_path := by
      intro j t ht hopen hpath
      exact hapart session hsession t (List.mem_of_getElem? ht) hopen (events_path_eq_iff.mp hpath)
    intro j k s t hs ht hsopen htopen hpath
    rcases getElem?_set_cases hs with ⟨rfl, rfl⟩ | ⟨-, hold⟩
    · rcases getElem?_set_cases ht with ⟨rfl, -⟩ | ⟨-, hold⟩
      · rfl
      · exact absurd hpath (hother k t hold htopen)
    · rcases getElem?_set_cases ht with ⟨rfl, rfl⟩ | ⟨-, hold'⟩
      · exact absurd hpath.symm (hother j s hold hsopen)
      · exact h j k s t hold hold' hsopen htopen hpath

theorem distinct_step {act : LogAct} (h : logs.Distinct) (hstep : logs.step act = some logs') :
    logs'.Distinct ↔ logs.Apart act := by
  cases act with
  | start kind title host_label started_at =>
    cases hstep
    exact iff_of_true (h.start _ rfl _) trivial
  | create i =>
    obtain ⟨session, hsession, hposition, rfl⟩ := create_ok hstep
    exact h.create hsession hposition _
  | write i bytes =>
    obtain ⟨session, position, hsession, hposition, hsessions⟩ := write_ok hstep
    have hdistinct := h.write hsession hposition (position + bytes.length) logs'.files
    rw [← hsessions] at hdistinct
    exact iff_of_true hdistinct trivial

theorem untruncated_of_apart {act : LogAct} (hapart : logs.Apart act) : logs.Untruncated act := by
  cases act with
  | start kind title host_label started_at =>
    rintro logs' ⟨⟩
    rfl
  | create i =>
    intro logs' hstep j t hne ht hopen
    obtain ⟨session, hsession, -, rfl⟩ := create_ok hstep
    have hpath : t.events_path ≠ session.events_path := fun h =>
      hapart session hsession t (List.mem_of_getElem? ht) hopen (events_path_eq_iff.mp h.symm)
    rw [Map.get_insert, if_neg hpath]
  | write i bytes => trivial

end Steps

theorem distinct_iff (acts : List LogAct) :
    Always step Distinct new acts ↔ EveryStep step Apart new acts := by
  have hnew : Distinct new := by
    intro i j s t hs
    cases hs
  exact always_iff (fun _ h => h)
    (fun _ _ _ h hstep => ⟨distinct_step h hstep, (distinct_step h hstep).mpr⟩) hnew acts

/-- In every run of session starts, file creations and writes, no two writers share an events file
and no start of a session truncates the file of another exactly if each file is created by a session
whose sanitized title and second differ from those of the files there. -/
theorem transcripts_apart_iff (acts : List LogAct) :
    (Always step Distinct new acts ∧ EveryStep step Untruncated new acts) ↔
      EveryStep step Apart new acts := by
  constructor
  · exact fun h => (distinct_iff acts).mp h.1
  · intro h
    refine ⟨(distinct_iff acts).mpr h, h.keeps (K := fun _ => True) ?_ trivial⟩
    exact fun _ _ _ _ _ hapart => ⟨untruncated_of_apart hapart, trivial⟩

section Sample

/-- Two local sessions within a second of each other. -/
def started_together : List LogAct :=
  [.start .Local "local" none (10 ^ 9), .create 0, .write 0 [1, 2, 3],
    .start .Local "local" none (10 ^ 9 + 5 * 10 ^ 8), .create 1]

theorem transcript_shared :
    ¬ (Always step Distinct new started_together ∧ EveryStep step Untruncated new started_together) := by
  rintro ⟨h, -⟩
  revert h
  rw [distinct_iff]
  decide

end Sample

end SessionLogs

end Seance.Core
