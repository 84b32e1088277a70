import Seance.Vault.Crash

namespace Seance.Vault
open Lib

/-- The loader of the kind answers for the id as it did before. Snippets have no loader. -/
def SameLoad (p : Primitives) (s t : VaultStore) (id : String) : RecordKind → Prop
  | .host => loadHostProfile p t id = loadHostProfile p s id
  | .passwordCredential => loadPasswordCredential p t id = loadPasswordCredential p s id
  | .privateKey => loadPrivateKey p t id = loadPrivateKey p s id
  | .portForward => loadPortForward p t id = loadPortForward p s id
  | .snippet => True

/-- The record a statement writes. -/
def Statement.writes : Statement → Option (String × RecordKind)
  | .upsertRecord r => some (r.recordId, r.kind)
  | _ => none

/-- The row a statement writes under the id. -/
def Statement.rowFor (id : String) : Statement → Option EncryptedRecord
  | .upsertRecord r => if r.recordId = id then some r else none
  | _ => none

/-- The store over another database. -/
def VaultStore.withDb (s : VaultStore) (db : Database) : VaultStore :=
  { s with conn := { s.conn with db } }

/-- A record that was live before the call loads the same at any two points of the call, its
beginning and its end among them, between which the call does not write that record itself. -/
def OthersUnchanged (p : Primitives) (s : VaultStore) (e : Event) : Prop :=
  ∀ r ∈ s.conn.db.records.rows, r.deletedAt = none →
    ∀ pre mid post db db', s.statementsOf p e = pre ++ mid ++ post →
      replay s.conn.db pre = .ok db → replay db mid = .ok db' →
      (∀ stmt ∈ mid, stmt.writes ≠ some (r.recordId, r.kind)) →
      SameLoad p (s.withDb db) ((s.after p e).withDb db') r.recordId r.kind

/-- A store, delete or merge that succeeds and has something to write. -/
def Writes (p : Primitives) (s : VaultStore) (e : Event) : Prop :=
  (e.call.isEdit = true ∨ ∃ delta, e.call = .applyDelta delta) ∧
    ∃ reply, s.answer p e = .ok reply ∧ reply ≠ .deleted false

namespace VaultStore

/-- No live record of the id is of another kind that can be loaded. -/
def FreeFor (s : VaultStore) (id : String) (kind : RecordKind) : Prop :=
  ∀ r ∈ s.conn.db.records.rows, r.deletedAt = none → r.kind ≠ .snippet → r.recordId = id →
    r.kind = kind

/-- Where a delta brings another kind under a live record's id, the newest version of the
record itself so far is a tombstone. -/
def FreeForAll (s : VaultStore) (ds : List VaultDeltaRecord) : Prop :=
  ∀ r ∈ s.conn.db.records.rows, r.deletedAt = none → r.kind ≠ .snippet →
    ∀ m, Displaced EncryptedRecord.kind compareRecordPrecedence r
        ((incomingRows ds).filter (fun q => decide (q.recordId = r.recordId))) m →
      m.deletedAt ≠ none

end VaultStore

/-- What a call brings does not meet its id under another kind. -/
def KindsApart (s : VaultStore) (e : Event) : Prop :=
  match e.call with
  | .applyDelta delta => s.FreeForAll delta.records
  | call => ∀ id kind, call.target e.world = some (id, kind) → s.FreeFor id kind

section Loads

variable {p : Primitives} {s t : VaultStore} {T : Type} [RecordPayload T]

theorem decryptRecord_congr (hkey : t.masterKey = s.masterKey)
    (hheader : t.header.map VaultHeader.vaultId = s.header.map VaultHeader.vaultId)
    (r : EncryptedRecord) : decryptRecord p T t r = decryptRecord p T s r := by
  unfold decryptRecord VaultStore.masterKeyOrLocked
  rw [hkey]
  cases hs : s.header with
  | none =>
    rw [hs] at hheader
    rw [Option.map_eq_none_iff.mp hheader]
  | some h =>
    rw [hs] at hheader
    obtain ⟨h', hh', hid⟩ := Option.map_eq_some_iff.mp hheader
    rw [hh']
    simp only [okOr, except_ok_bind, hid]

/-- The local sync fields of a record have no part in opening it. -/
theorem decryptRecord_of_delta {r q : EncryptedRecord} (h : r.toDeltaRecord = q.toDeltaRecord) :
    decryptRecord p T s r = decryptRecord p T s q := by
  cases r
  cases q
  cases h
  rfl

/-- A load reads one record, the master key and the vault id. -/
theorem loadRecordPayload_congr {id : String} (hkey : t.masterKey = s.masterKey)
    (hheader : t.header.map VaultHeader.vaultId = s.header.map VaultHeader.vaultId)
    (hrecord : t.replicated id = s.replicated id) (kind : RecordKind) :
    loadRecordPayload p T t id kind = loadRecordPayload p T s id kind := by
  unfold VaultStore.replicated at hrecord
  unfold loadRecordPayload Storage.loadRecord
  cases hs : s.conn.db.records.find? id with
  | none =>
    rw [hs] at hrecord
    rw [Option.map_eq_none_iff.mp hrecord]
    rfl
  | some r =>
    rw [hs] at hrecord
    obtain ⟨q, hq, hdelta⟩ := Option.map_eq_some_iff.mp hrecord
    have hkind : q.kind = r.kind := congrArg VaultDeltaRecord.kind hdelta
    have hdeleted : q.deletedAt = r.deletedAt := congrArg VaultDeltaRecord.deletedAt hdelta
    rw [hq]
    simp only [Option.filter_some, hkind]
    cases r.kind == kind with
    | false => rfl
    | true =>
      simp only [if_true, hdeleted, decryptRecord_congr hkey hheader,
        decryptRecord_of_delta hdelta]

/-- A live record loads or fails to; it is never absent. -/
theorem loadRecordPayload_live {r : EncryptedRecord} {kind : RecordKind}
    (hr : r ∈ s.conn.db.records.rows) (hlive : r.deletedAt = none) (hkind : r.kind = kind) :
    loadRecordPayload p T s r.recordId kind ≠ .ok none := by
  have hload : Storage.loadRecord s.conn.db r.recordId kind = some r :=
    Storage.loadRecord_eq_some.mpr ⟨Table.find?_of_mem hr, hkind⟩
  unfold loadRecordPayload
  rw [hload]
  simp only [hlive, Option.isSome_none, Bool.false_eq_true, if_false]
  cases decryptRecord p T s r <;> simp [Except.map]

/-- A row of another kind and a tombstone load as nothing. -/
theorem loadRecordPayload_absent {id : String} {kind : RecordKind}
    (h : ∀ m, t.conn.db.records.find? id = some m → m.kind = kind → m.deletedAt ≠ none) :
    loadRecordPayload p T t id kind = .ok none := by
  unfold loadRecordPayload
  cases hload : Storage.loadRecord t.conn.db id kind with
  | none => rfl
  | some m =>
    obtain ⟨hfind, hkind⟩ := Storage.loadRecord_eq_some.mp hload
    exact if_pos (Option.isSome_iff_ne_none.mpr (h m hfind hkind))

theorem sameLoad_of_find {id : String}
    (hfind : t.conn.db.records.find? id = s.conn.db.records.find? id)
    (hkey : t.masterKey = s.masterKey)
    (hheader : t.header.map VaultHeader.vaultId = s.header.map VaultHeader.vaultId) (kind : RecordKind) :
    SameLoad p s t id kind := by
  cases kind with
  | snippet => trivial
  | host | passwordCredential | privateKey | portForward =>
    exact loadRecordPayload_congr hkey hheader (congrArg (Option.map _) hfind) _

theorem sameLoad_of_absent {id : String} {kind : RecordKind}
    (hs : ∀ m, s.conn.db.records.find? id = some m → m.kind = kind → m.deletedAt ≠ none)
    (ht : ∀ m, t.conn.db.records.find? id = some m → m.kind = kind → m.deletedAt ≠ none) :
    SameLoad p s t id kind := by
  cases kind with
  | snippet => trivial
  | host | passwordCredential | privateKey | portForward =>
    exact (loadRecordPayload_absent ht).trans (loadRecordPayload_absent hs).symm

/-- A live record whose row now has another kind does not load any more. -/
theorem not_sameLoad {r m : EncryptedRecord} (hr : r ∈ s.conn.db.records.rows)
    (hlive : r.deletedAt = none) (hkind : r.kind ≠ .snippet)
    (hm : t.conn.db.records.find? r.recordId = some m) (hne : m.kind ≠ r.kind) :
    ¬ SameLoad p s t r.recordId r.kind := by
  have habsent : ∀ q, t.conn.db.records.find? r.recordId = some q → q.kind = r.kind →
      q.deletedAt ≠ none := by
    intro q hq hsame
    cases hm.symm.trans hq
    exact absurd hsame hne
  intro hsame
  cases hk : r.kind with
  | snippet => exact hkind hk
  | host | passwordCredential | privateKey | portForward =>
    rw [hk] at hsame habsent
    exact loadRecordPayload_live hr hlive hk (hsame.symm.trans (loadRecordPayload_absent habsent))

end Loads

section Rows

variable {p : Primitives} {s : VaultStore} {e : Event} {db db' : Database} {id : String}

theorem find?_exec {stmt : Statement} (h : stmt.exec db = .ok db') :
    db'.records.find? id = (stmt.rowFor id).or (db.records.find? id) := by
  cases stmt with
  | upsertRecord r =>
    obtain ⟨_, _, h⟩ := except_bind_ok.mp h
    obtain ⟨_, _, h⟩ := except_bind_ok.mp h
    cases h
    refine (Table.find?_put db.records r id).trans ?_
    rw [Statement.rowFor]
    by_cases hid : r.recordId = id
    · rw [if_pos hid, if_pos hid.symm, Option.some_or]
    · rw [if_neg hid, if_neg (Ne.symm hid), Option.none_or]
  | insertHeader header =>
    obtain ⟨_, _, h⟩ := except_bind_ok.mp h
    dsimp only at h
    split at h
    · cases h
    · cases h
      rfl
  | updateLogicalClock clock updatedAt =>
    obtain ⟨_, _, h⟩ := except_bind_ok.mp h
    cases h
    rfl
  | insertRecoveryBundle bundle =>
    dsimp only [Statement.exec] at h
    split at h
    · cases h
      rfl
    · cases h
  | updateHeaderKdf _ _ | deleteRecoveryBundles | upsertDeviceEnrollment _
  | updateDeviceLastUsed _ _ | deleteDeviceEnrollments | upsertLocalState _ _
  | deleteLocalState _ =>
    cases h
    rfl

/-- Under an id there is what was written there last, or what was there before. -/
theorem find?_replay {stmts : List Statement} (h : replay db stmts = .ok db') :
    db'.records.find? id =
      ((stmts.filterMap (Statement.rowFor id)).getLast?).or (db.records.find? id) := by
  induction stmts generalizing db with
  | nil =>
    cases h
    rfl
  | cons stmt rest ih =>
    obtain ⟨next, hnext, h⟩ := except_bind_ok.mp h
    rw [ih h, find?_exec hnext, ← Option.or_assoc, List.filterMap_cons]
    cases stmt.rowFor id with
    | none => rw [Option.or_none]
    | some r =>
      rw [List.getLast?_cons]
      cases (rest.filterMap (Statement.rowFor id)).getLast? <;> rfl

theorem find?_replay_of_mem {stmts : List Statement} {r : EncryptedRecord}
    (hr : r ∈ db.records.rows) (h : replay db stmts = .ok db') :
    db'.records.find? r.recordId =
      some ((stmts.filterMap (Statement.rowFor r.recordId)).getLastD r) := by
  rw [find?_replay h, Table.find?_of_mem hr, List.getLastD_eq_getLast?]
  cases (stmts.filterMap (Statement.rowFor r.recordId)).getLast? <;> rfl

theorem rowFor_recordId {stmt : Statement} {r : EncryptedRecord}
    (h : stmt.rowFor id = some r) : stmt = .upsertRecord r ∧ r.recordId = id := by
  cases stmt with
  | upsertRecord q =>
    obtain ⟨hid, hq⟩ := Option.ite_none_right_eq_some.mp h
    cases hq
    exact ⟨rfl, hid⟩
  | _ => cases h

/-- A row written under an id is written by one statement, and the rows before it by those before. -/
theorem rows_split {stmts : List Statement} {us ws : List EncryptedRecord} {q : EncryptedRecord}
    (h : stmts.filterMap (Statement.rowFor id) = us ++ q :: ws) :
    ∃ pre post, stmts = pre ++ [.upsertRecord q] ++ post ∧
      pre.filterMap (Statement.rowFor id) = us ∧ q.recordId = id := by
  obtain ⟨pre, rest, rfl, rfl, hrest⟩ := List.filterMap_eq_append_iff.mp h
  obtain ⟨skipped, stmt, post, rfl, hskipped, hstmt, _⟩ := List.filterMap_eq_cons_iff.mp hrest
  obtain ⟨rfl, hid⟩ := rowFor_recordId hstmt
  refine ⟨pre ++ skipped, post, by simp, ?_, hid⟩
  rw [List.filterMap_append, List.filterMap_eq_nil_iff.mpr hskipped, List.append_nil]

/-- The statements of a call go through one by one. -/
theorem replay_split {pre mid post : List Statement}
    (h : s.statementsOf p e = pre ++ mid ++ post) :
    ∃ db db', replay s.conn.db pre = .ok db ∧ replay db mid = .ok db' := by
  obtain ⟨stmts, hjournal, hreplay⟩ := perform_logged p e.world e.call s
  have hstmts : s.statementsOf p e = stmts := by
    unfold VaultStore.statementsOf VaultStore.after
    rw [hjournal, List.drop_left]
  rw [← hstmts, h, replay_append, replay_append] at hreplay
  obtain ⟨db', hmid, _⟩ := except_bind_ok.mp hreplay
  obtain ⟨db, hpre, hmid⟩ := except_bind_ok.mp hmid
  exact ⟨db, db', hpre, hmid⟩

/-- A call leaves the others alone exactly if no row it writes takes the place of a live one
of another kind. -/
theorem othersUnchanged_iff (hkey : (s.after p e).masterKey = s.masterKey)
    (hheader : (s.after p e).header.map VaultHeader.vaultId = s.header.map VaultHeader.vaultId) :
    OthersUnchanged p s e ↔ ∀ r ∈ s.conn.db.records.rows, r.deletedAt = none →
      r.kind ≠ .snippet → ∀ us q ws,
        (s.statementsOf p e).filterMap (Statement.rowFor r.recordId) = us ++ q :: ws →
        (us.getLastD r).kind = r.kind → q.kind ≠ r.kind → (us.getLastD r).deletedAt ≠ none := by
  constructor
  · intro h r hr hlive hsnippet us q ws hrows hkind hother hdeleted
    obtain ⟨pre, post, hsplit, rfl, hid⟩ := rows_split hrows
    obtain ⟨db, db', hbefore, hafter⟩ := replay_split hsplit
    have hfound := find?_replay_of_mem hr hbefore
    generalize (pre.filterMap (Statement.rowFor r.recordId)).getLastD r = x at *
    have hid' := Table.find?_key hfound
    have hwritten : db'.records.find? r.recordId = some q := by
      rw [find?_replay hafter]
      simp [Statement.rowFor, hid]
    have hsame := h r hr hlive _ _ _ db db' hsplit hbefore hafter (by
      rintro _ hmem hwrites
      cases List.mem_singleton.mp hmem
      exact hother (congrArg Prod.snd (Option.some.inj hwrites)))
    rw [← hid', ← hkind] at hsame
    exact not_sameLoad (Table.mem_of_find? hfound) hdeleted (hkind ▸ hsnippet)
      (hid' ▸ hwritten) (hkind ▸ hother) hsame
  · intro h r hr hlive pre mid post db db' hsplit hbefore hafter hown
    by_cases hsnippet : r.kind = .snippet
    · rw [hsnippet]
      trivial
    have hfound := find?_replay_of_mem hr hbefore
    have hnow : db'.records.find? r.recordId =
        ((mid.filterMap (Statement.rowFor r.recordId)).getLast?).or
          (db.records.find? r.recordId) := find?_replay hafter
    have hkinds : ∀ q ∈ mid.filterMap (Statement.rowFor r.recordId), q.kind ≠ r.kind := by
      intro q hq hkind
      obtain ⟨stmt, hmem, hstmt⟩ := List.mem_filterMap.mp hq
      obtain ⟨rfl, hid⟩ := rowFor_recordId hstmt
      exact hown _ hmem (by rw [Statement.writes, hid, hkind])
    cases hmid : mid.filterMap (Statement.rowFor r.recordId) with
    | nil =>
      rw [hmid] at hnow
      have hsame : ((s.after p e).withDb db').conn.db.records.find? r.recordId =
          (s.withDb db).conn.db.records.find? r.recordId := hnow
      exact sameLoad_of_find hsame hkey hheader r.kind
    | cons q qs =>
      rw [hmid] at hnow hkinds
      -- the first of the other kind finds the record gone, and the last leaves it so
      have hgone := h r hr hlive hsnippet (pre.filterMap (Statement.rowFor r.recordId)) q
        (qs ++ post.filterMap (Statement.rowFor r.recordId))
        (by rw [hsplit, List.filterMap_append, List.filterMap_append, hmid]; simp)
      refine sameLoad_of_absent (fun m hm hkind => ?_) (fun m hm hkind => ?_)
      · cases hfound.symm.trans hm
        exact hgone hkind (hkinds q List.mem_cons_self)
      · rw [show ((s.after p e).withDb db').conn.db = db' from rfl, hnow, List.getLast?_cons,
          Option.some_or] at hm
        have hmem : m ∈ q :: qs := by
          rw [← Option.some.inj hm]
          exact List.mem_of_getLast? (List.getLast?_cons ..)
        exact absurd hkind (hkinds m hmem)

end Rows

section Edits

variable {p : Primitives} {s : VaultStore} {d : VaultHeader} {r : EncryptedRecord}

theorem bumped_vaultId (s : VaultStore) (clock : Nat) (sqlNow now : Int) (h : clock ≤ i64Max) :
    (s.bumped clock sqlNow now h).header.map VaultHeader.vaultId =
      s.header.map VaultHeader.vaultId := by
  cases hs : s.header <;> simp [VaultStore.bumped, hs]

/-- One record written leaves the others alone exactly if its id is free for its kind. -/
theorem wrote_unchanged_iff {e : Event} {clock : Nat} {sqlNow now : Int} (hc : clock ≤ i64Max)
    (hr : r.Fits) (hafter : s.after p e = (s.bumped clock sqlNow now hc).wrote r hr) :
    OthersUnchanged p s e ↔ s.FreeFor r.recordId r.kind := by
  have hstmts : s.statementsOf p e = [.updateLogicalClock clock sqlNow, .upsertRecord r] := by
    simp [VaultStore.statementsOf, hafter, VaultStore.wrote, VaultStore.commit, VaultStore.bumped]
  rw [othersUnchanged_iff (by rw [hafter]; rfl)
    (by rw [hafter]; exact bumped_vaultId s clock sqlNow now hc), hstmts]
  constructor
  · intro h q hq hlive hsnippet hid
    by_contra hne
    refine h q hq hlive hsnippet [] r [] ?_ rfl (Ne.symm hne) hlive
    rw [List.filterMap_cons, List.filterMap_cons]
    simp [Statement.rowFor, hid]
  · intro hfree q hq hlive hsnippet us x ws hrows _ hother _
    rw [List.filterMap_cons, List.filterMap_cons] at hrows
    by_cases hid : r.recordId = q.recordId
    · simp only [Statement.rowFor, if_pos hid, List.filterMap_nil] at hrows
      cases us with
      | nil =>
        cases hrows
        exact hother (hfree q hq hlive hsnippet hid.symm).symm
      | cons _ us => cases us <;> cases hrows
    · simp only [Statement.rowFor, if_neg hid, List.filterMap_nil] at hrows
      cases us <;> cases hrows

/-- An edit that writes leaves the others alone exactly if its id is free for its kind. -/
theorem edit_unchanged_iff {e : Event} {reply : Reply} (hedit : e.call.isEdit = true)
    (hok : s.answer p e = .ok reply) (hreply : reply ≠ .deleted false) :
    OthersUnchanged p s e ↔
      ∀ id kind, e.call.target e.world = some (id, kind) → s.FreeFor id kind := by
  have hout := edit_outcome (p := p) (w := e.world) (s := s) hedit
  unfold VaultStore.answer outcome at hok
  generalize hresult : (perform p e.world e.call).run s = result at hout hok
  cases hout with
  | refused | unsealed _ _ _ => cases hok
  | absent =>
    cases hok
    exact absurd rfl hreply
  | written hc hr _ _ htarget _ =>
    rw [wrote_unchanged_iff hc hr (finalState_of_ok hresult), htarget]
    constructor
    · rintro hfree _ _ ⟨⟩
      exact hfree
    · exact fun hfree => hfree _ _ rfl

end Edits

section Merges

variable {p : Primitives} {s : VaultStore} {ds : List VaultDeltaRecord}

/-- A merge leaves the others alone exactly if it brings no other kind for a live record's
id, unless the record is deleted by then. -/
theorem merged_unchanged_iff {e : Event} (h : ClocksFit ds) {clock : Nat} {sqlNow now : Int}
    (hc : clock ≤ i64Max) (hafter : s.after p e = (s.merged ds h).bumped clock sqlNow now hc) :
    OthersUnchanged p s e ↔ s.FreeForAll ds := by
  have hstmts : s.statementsOf p e =
      (s.conn.db.records.taken supersedes (incomingRows ds)).map Statement.upsertRecord ++
        [.updateLogicalClock clock sqlNow] := by
    simp [VaultStore.statementsOf, hafter, VaultStore.merged, VaultStore.bumped]
  have hrows : ∀ r ∈ s.conn.db.records.rows,
      (s.statementsOf p e).filterMap (Statement.rowFor r.recordId) =
        takenOf supersedes (some r)
          ((incomingRows ds).filter (fun q => decide (q.recordId = r.recordId))) := by
    intro r hr
    have htaken := Table.filter_taken supersedes s.conn.db.records (incomingRows ds) r.recordId
    rw [Table.find?_of_mem hr] at htaken
    rw [hstmts, List.filterMap_append, List.filterMap_map, ← htaken, ← List.filterMap_eq_filter]
    simp [Statement.rowFor, Function.comp_def, Option.guard]
  rw [othersUnchanged_iff (by rw [hafter]; rfl)
    (by rw [hafter]; exact bumped_vaultId (s.merged ds h) clock sqlNow now hc)]
  unfold VaultStore.FreeForAll
  refine forall₂_congr fun r hr => forall₂_congr fun _ _ => ?_
  have hties : ∀ a b, compareRecordPrecedence a b = .eq → a.deletedAt = none → b.deletedAt = none :=
    fun a b htie ha => (compareRecordPrecedence_eq htie).2.2.2.1 ▸ ha
  have hgiven := taken_displaced_iff EncryptedRecord.kind r
    ((incomingRows ds).filter (fun q => decide (q.recordId = r.recordId))) hties
  rw [hrows r hr]
  constructor
  · intro hkept m hm hlive
    obtain ⟨us, q, ws, htaken, hkind, hother, hdeleted⟩ := hgiven.mpr ⟨m, hm, hlive⟩
    exact hkept us q ws htaken hkind hother hdeleted
  · intro hfree us q ws htaken hkind hother hdeleted
    obtain ⟨m, hm, hlive⟩ := hgiven.mp ⟨us, q, ws, htaken, hkind, hother, hdeleted⟩
    exact hfree m hm hlive

theorem delta_unchanged_iff {w : World} {delta : VaultDelta} {reply : Reply}
    (hok : s.answer p ⟨w, .applyDelta delta⟩ = .ok reply) :
    OthersUnchanged p s ⟨w, .applyDelta delta⟩ ↔ s.FreeForAll delta.records := by
  have hout := applyDelta_outcome w s delta
  unfold VaultStore.answer outcome perform at hok
  rw [EStateM.run_bind] at hok
  generalize hresult : (applyDelta w delta).run s = result at hout hok
  cases hout with
  | refused _ | cut _ _ _ _ | unclocked _ _ _ => cases hok
  | applied hfit hc _ _ =>
    have hafter : s.after p ⟨w, .applyDelta delta⟩ = (s.merged delta.records hfit).bumped
        (s.newCursor delta) (w.now 0) (w.now 1) hc := by
      unfold VaultStore.after finalState perform
      rw [EStateM.run_bind, hresult]
      rfl
    exact merged_unchanged_iff hfit hc hafter

end Merges

/-- In one state: a call that writes leaves the other live records alone exactly if the
kinds are kept apart. -/
theorem unchanged_iff_apart {p : Primitives} {s : VaultStore} {e : Event} (h : Writes p s e) :
    OthersUnchanged p s e ↔ KindsApart s e := by
  obtain ⟨hcall, reply, hok, hreply⟩ := h
  obtain ⟨w, call⟩ := e
  rcases hcall with hedit | ⟨delta, rfl⟩
  · rw [edit_unchanged_iff hedit hok hreply]
    cases call with
    | applyDelta _ => cases hedit
    | createVault _ _ | tryUnlockWithDevice | unlockWithPassphrase _ _ | rotatePassphrase _ _
    | lock | applySnapshot _ | storeHostProfile _ | storePasswordCredential _
    | storePrivateKey _ | storePortForward _ | generatePrivateKey _ | importPrivateKey _
    | deleteHostProfile _ | deletePasswordCredential _ | deletePrivateKey _
    | deletePortForward _ => exact Iff.rfl
  · exact delta_unchanged_iff hok

/-- Over a run: no successful store, delete or merge touches a live record of another id
or kind exactly if every one of them keeps the kinds apart. -/
theorem kinds_never_clash_iff (p : Primitives) (s : VaultStore) (events : List Event) :
    VaultStore.AllEvents p (fun s e => Writes p s e → OthersUnchanged p s e) s events ↔
      VaultStore.AllEvents p (fun s e => Writes p s e → KindsApart s e) s events :=
  VaultStore.AllEvents.congr (fun s e => forall_congr' (fun h : Writes p s e =>
    unchanged_iff_apart h))

open Sample in
/-- A new vault with a host under the id "a". -/
def createWithHost : VaultStore :=
  (VaultStore.fresh "a.sqlite" .empty).afterAll primitives
    [⟨world 1, .createVault "pw" "a"⟩,
      ⟨world 2, .storeHostProfile (host "a")⟩]

open Sample in
/-- A credential stored under the id of a host takes the host's place. -/
theorem credential_replaces_host :
    let stored : Event := ⟨world 3, .storePasswordCredential (credential "a")⟩
    Succeeds primitives createWithHost stored ∧
      (∀ stmt ∈ createWithHost.statementsOf primitives stored,
        stmt.writes ≠ some ("a", .host)) ∧
      loadHostProfile primitives createWithHost "a" = .ok (some (host "a")) ∧
      loadHostProfile primitives (createWithHost.after primitives stored) "a" = .ok none := by
  refine ⟨succeeds_of_isSome ?_, ?_, ?_, ?_⟩ <;> decide +kernel

end Seance.Vault
