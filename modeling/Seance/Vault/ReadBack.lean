import Mathlib.Data.List.Nodup
import Seance.Lib.Map
import Seance.Vault.Hosts
import Seance.Vault.References

namespace Seance.Vault
open Lib

/-- What the records of a kind hold. No method stores a snippet. -/
def Payload : RecordKind → Type
  | .host => VaultHostProfile
  | .passwordCredential => VaultPasswordCredential
  | .privateKey => VaultPrivateKey
  | .snippet => Empty
  | .portForward => VaultPortForwardProfile

instance : RecordPayload Empty where
  recordId := nofun
  setRecordId := nofun
  json _ := ⟨nofun, fun _ => .error "no snippets"⟩
  recordId_setRecordId := nofun

instance (kind : RecordKind) : RecordPayload (Payload kind) :=
  match kind with
  | .host => inferInstanceAs (RecordPayload VaultHostProfile)
  | .passwordCredential => inferInstanceAs (RecordPayload VaultPasswordCredential)
  | .privateKey => inferInstanceAs (RecordPayload VaultPrivateKey)
  | .snippet => inferInstanceAs (RecordPayload Empty)
  | .portForward => inferInstanceAs (RecordPayload VaultPortForwardProfile)

/-- A value in the clear, with the time it was stored. -/
structure Entry where
  kind : RecordKind
  value : Payload kind
  modifiedAt : Int

/-- What a vault is for: one value under each id. -/
abbrev Holdings := Map String Entry

namespace Entry

def id (e : Entry) : String := RecordPayload.recordId e.value

/-- The value, where it is of the kind. -/
def as (e : Entry) (kind : RecordKind) : Option (Payload kind) :=
  if h : e.kind = kind then some (h ▸ e.value) else none

end Entry

namespace Holdings

def find (m : Holdings) (kind : RecordKind) (id : String) : Option (Payload kind) :=
  (m.get id).bind (fun e => e.as kind)

/-- The list has every value of the kind once, in the order of the times they were modified, the
latest first. -/
structure Listed (m : Holdings) (kind : RecordKind) (l : List (Payload kind × Int)) : Prop where
  once : (l.map (fun x => RecordPayload.recordId x.1)).Nodup
  newestFirst : l.Pairwise (fun x y => y.2 ≤ x.2)
  all : ∀ value modifiedAt,
    (value, modifiedAt) ∈ l ↔ ∃ id, m.get id = some ⟨kind, value, modifiedAt⟩

end Holdings

/-- The value a call is to store. -/
def Call.stores (p : Primitives) (w : World) : Call → Option Entry
  | .storeHostProfile host => some ⟨.host, withRecordId w host, w.now 1⟩
  | .storePasswordCredential credential =>
    some ⟨.passwordCredential, withRecordId w credential, w.now 1⟩
  | .storePrivateKey key => some ⟨.privateKey, withRecordId w key, w.now 1⟩
  | .storePortForward portForward => some ⟨.portForward, withRecordId w portForward, w.now 1⟩
  | .generatePrivateKey request => (generatedPrivateKey w request).toOption.map
      (fun key => ⟨.privateKey, withRecordId w key, w.now 1⟩)
  | .importPrivateKey request => (importedPrivateKey p request).toOption.map
      (fun key => ⟨.privateKey, withRecordId w key, w.now 1⟩)
  | _ => none

namespace Holdings

/-- The holdings after a call that has done what it is to do. -/
def applied (p : Primitives) (m : Holdings) (e : Event) : Holdings :=
  match e.call.stores p e.world, e.call.deletes with
  | some entry, _ => m.insert entry.id entry
  | none, some (id, _) => m.remove id
  | none, none => m

/-- The holdings a caller knows of who goes by the answers: a call that fails, or finds
nothing to delete, counts for nothing. -/
def told (p : Primitives) (s : VaultStore) (m : Holdings) (e : Event) : Holdings :=
  match s.answer p e with
  | .error _ | .ok (.deleted false) => m
  | .ok _ => m.applied p e

/-- The holdings at the end of a run. -/
def toldAll (p : Primitives) (s : VaultStore) (m : Holdings) : List Event → Holdings
  | [] => m
  | e :: rest => toldAll p (s.after p e) (m.told p s e) rest

end Holdings

/-- Every load and every listing answers from the holdings. -/
structure VaultStore.ReadsBack (p : Primitives) (s : VaultStore) (m : Holdings) : Prop where
  loadHost : ∀ id, loadHostProfile p s id = .ok (m.find .host id)
  loadCredential : ∀ id, loadPasswordCredential p s id = .ok (m.find .passwordCredential id)
  loadKey : ∀ id, loadPrivateKey p s id = .ok (m.find .privateKey id)
  loadForward : ∀ id, loadPortForward p s id = .ok (m.find .portForward id)
  hosts : ∃ l, m.Listed .host l ∧
    listHostProfiles p s = .ok (l.map (fun x => VaultHostProfile.summary x.1 x.2)) ∧
    listHostAuthSummaries p s = .ok (l.map (fun x => VaultHostProfile.authSummary x.1))
  credentials : ∃ l, m.Listed .passwordCredential l ∧
    listPasswordCredentials p s =
      .ok (l.map (fun x => VaultPasswordCredential.summary x.1 x.2))
  keys : ∃ l, m.Listed .privateKey l ∧
    listPrivateKeys p s = .ok (l.map (fun x => VaultPrivateKey.summary x.1 x.2))
  forwards : ∃ l, m.Listed .portForward l ∧
    listPortForwards p s = .ok (l.map (fun x => VaultPortForwardProfile.summary x.1 x.2))

/-- What the row of an id and its entry have to do with each other. -/
inductive Agrees (p : Primitives) (k : VaultKeys) : Option EncryptedRecord → Option Entry → Prop
  | missing : Agrees p k none none
  | gone {r : EncryptedRecord} : r.deletedAt ≠ none → Agrees p k (some r) none
  | there {r : EncryptedRecord} {value : Payload r.kind} : r.deletedAt = none →
      openRecord p (Payload r.kind) k.masterKey k.vaultId r = .ok value →
      RecordPayload.recordId value = r.recordId →
      Agrees p k (some r) (some ⟨r.kind, value, r.modifiedAt⟩)

/-- The store fits the keys made so far, and under them its rows agree with the holdings. -/
def VaultStore.Holds (p : Primitives) (s : VaultStore) (m : Holdings) (keys : Option VaultKeys) :
    Prop :=
  s.Keyed p keys ∧ match keys with
    | none => s.conn.db.records = .empty ∧ m = .empty
    | some k => ∀ id, Agrees p k (s.conn.db.records.find? id) (m.get id)

section Answers

variable {p : Primitives} {s : VaultStore} {m : Holdings} {e : Event}

/-- A deletion that answers `false` leaves the store as it was. -/
theorem after_deleted_false (h : e.call.isEdit = true)
    (hanswer : s.answer p e = .ok (.deleted false)) : s.after p e = s := by
  have hout := edit_outcome (p := p) (w := e.world) (s := s) h
  unfold VaultStore.answer outcome at hanswer
  unfold VaultStore.after finalState
  generalize (perform p e.world e.call).run s = result at hout hanswer ⊢
  cases hout with
  | refused | unsealed _ _ _ => cases hanswer
  | absent => rfl
  | written _ _ _ _ _ hreply =>
    cases hanswer
    exact absurd rfl hreply

/-- Calls that are no edits store and delete nothing. -/
theorem told_of_not_edit (h : e.call.isEdit = false) : m.told p s e = m := by
  have happlied : m.applied p e = m := by
    obtain ⟨w, call⟩ := e
    unfold Holdings.applied
    cases call <;> first | rfl | cases h
  unfold Holdings.told
  split
  · rfl
  · rfl
  · exact happlied

/-- What a local call does to the records is what its answer says. -/
theorem answered (hlocal : e.call.exchanges = false) :
    (s.after p e).conn.db.records = s.conn.db.records ∧ m.told p s e = m ∨
    ∃ r, e.call.Writes p e.world s r ∧
      (s.after p e).conn.db.records = s.conn.db.records.put r ∧
      m.told p s e = m.applied p e := by
  cases hedit : e.call.isEdit with
  | false =>
    refine .inl ⟨?_, told_of_not_edit hedit⟩
    obtain ⟨w, call⟩ := e
    cases call with
    | createVault passphrase deviceName => exact createVault_records passphrase deviceName
    | tryUnlockWithDevice | unlockWithPassphrase _ _ | rotatePassphrase _ _ | lock =>
      exact keying_records rfl
    | applySnapshot _ | applyDelta _ => cases hlocal
    | storeHostProfile _ | storePasswordCredential _ | storePrivateKey _ | storePortForward _
    | generatePrivateKey _ | importPrivateKey _ | deleteHostProfile _
    | deletePasswordCredential _ | deletePrivateKey _ | deletePortForward _ => cases hedit
  | true =>
    have habsent := after_deleted_false (p := p) (s := s) hedit
    have heffect := edit_effect (p := p) (w := e.world) (s := s) hedit
    unfold Holdings.told
    unfold VaultStore.answer VaultStore.after outcome finalState at *
    generalize (perform p e.world e.call).run s = result at heffect habsent ⊢
    cases heffect with
    | failed hsame => exact .inl ⟨hsame, rfl⟩
    | absent => exact .inl ⟨rfl, rfl⟩
    | @wrote t reply r _ hwrites hrecords =>
      by_cases hreply : reply = .deleted false
      · subst hreply
        exact .inl ⟨congrArg (fun s => s.conn.db.records) (habsent rfl), rfl⟩
      · refine .inr ⟨r, hwrites, hrecords, ?_⟩
        split
        · rename_i h
          cases h
        · rename_i h
          exact absurd (Except.ok.inj h) hreply
        · rfl

end Answers

section Written

variable {p : Primitives} {w : World} {s : VaultStore} {k : VaultKeys} {m : Holdings}
  {e : Event} {r : EncryptedRecord} {kind : RecordKind}

/-- What there is under the ids once a row and an entry of one id are written. -/
def AgreesAfter (p : Primitives) (k : VaultKeys) (m m' : Holdings) (r : EncryptedRecord) : Prop :=
  ∀ id, (id = r.recordId → Agrees p k (some r) (m'.get id)) ∧
    (id ≠ r.recordId → m'.get id = m.get id)

theorem agreesAfter_insert (entry : Entry) (h : Agrees p k (some r) (some entry))
    (hid : entry.id = r.recordId) : AgreesAfter p k m (m.insert entry.id entry) r := by
  intro id
  rw [Map.get_insert, hid]
  constructor
  · rintro rfl
    rw [if_pos rfl]
    exact h
  · intro hne
    exact if_neg hne

theorem agreesAfter_remove (h : r.deletedAt ≠ none) :
    AgreesAfter p k m (m.remove r.recordId) r := by
  intro id
  rw [Map.get_remove]
  constructor
  · rintro rfl
    rw [if_pos rfl]
    exact .gone h
  · intro hne
    exact if_neg hne

theorem SealsValue.agrees (ideal : IdealAead p)
    (hjson : (RecordPayload.json (T := Payload kind) p).Lossless) (hs : s.HoldsKeys p k)
    {value : Payload kind} (h : SealsValue p w s value kind r) :
    AgreesAfter p k m (m.insert (RecordPayload.recordId (withRecordId w value))
      ⟨kind, withRecordId w value, w.now 1⟩) r := by
  have hopen := h.opens ideal hjson hs
  obtain ⟨hid, hkind, hlive⟩ := h.fields
  have htime : r.modifiedAt = w.now 1 := by
    obtain ⟨_, _, _, _, _, _, hseal⟩ := h
    obtain ⟨_, _, _, _, rfl⟩ := sealRecord_ok.mp hseal
    rfl
  have hown : RecordPayload.recordId (withRecordId w value) = r.recordId := by
    rw [recordId_withRecordId, hid]
  subst hkind
  rw [← htime]
  exact agreesAfter_insert ⟨r.kind, withRecordId w value, r.modifiedAt⟩
    (.there hlive hopen hown) hown

/-- A written row agrees with what the call was to store or delete. -/
theorem Writes.applied (ideal : IdealAead p)
    (hjson : ∀ kind, (RecordPayload.json (T := Payload kind) p).Lossless) (hs : s.HoldsKeys p k)
    (h : e.call.Writes p e.world s r) : AgreesAfter p k m (m.applied p e) r := by
  obtain ⟨w, call⟩ := e
  cases call with
  | createVault _ _ | tryUnlockWithDevice | unlockWithPassphrase _ _ | rotatePassphrase _ _
  | lock | applySnapshot _ | applyDelta _ => exact h.elim
  | storeHostProfile host => exact SealsValue.agrees ideal (hjson .host) hs h
  | storePasswordCredential credential =>
    exact SealsValue.agrees ideal (hjson .passwordCredential) hs h
  | storePrivateKey key => exact SealsValue.agrees ideal (hjson .privateKey) hs h
  | storePortForward portForward => exact SealsValue.agrees ideal (hjson .portForward) hs h
  | generatePrivateKey request =>
    obtain ⟨key, hkey, h⟩ := h
    unfold Holdings.applied Call.stores
    dsimp only
    rw [hkey]
    exact SealsValue.agrees ideal (hjson .privateKey) hs h
  | importPrivateKey request =>
    obtain ⟨key, hkey, h⟩ := h
    unfold Holdings.applied Call.stores
    dsimp only
    rw [hkey]
    exact SealsValue.agrees ideal (hjson .privateKey) hs h
  | deleteHostProfile _ | deletePasswordCredential _ | deletePrivateKey _
  | deletePortForward _ =>
    obtain ⟨hid, _, hdead⟩ := Buries.fields h
    subst hid
    exact agreesAfter_remove hdead

theorem Agrees.rekey {passphrase : String} {row : Option EncryptedRecord} {entry : Option Entry}
    (h : Agrees p k row entry) : Agrees p { k with passphrase := passphrase } row entry := by
  cases h with
  | missing => exact .missing
  | gone hdead => exact .gone hdead
  | there hlive hopen hid => exact .there hlive hopen hid

theorem fresh_holds (path : String) (deviceStore : Table DeviceSecret.account) :
    (VaultStore.fresh path deviceStore).Holds p .empty none :=
  ⟨fresh_unset path deviceStore, rfl, rfl⟩

/-- One local call, whatever it answers. -/
theorem holds_step (ideal : IdealAead p)
    (hjson : ∀ kind, (RecordPayload.json (T := Payload kind) p).Lossless)
    {keys : Option VaultKeys} (h : s.Holds p m keys) (hlocal : e.call.exchanges = false) :
    (s.after p e).Holds p (m.told p s e) (keysAfter p s keys e) := by
  refine ⟨keyed_step ideal h.1 (not_import_of_local hlocal), ?_⟩
  rcases answered (p := p) (s := s) (m := m) hlocal with
    ⟨hsame, htold⟩ | ⟨r, hwrites, hput, htold⟩
  · rw [hsame, htold]
    cases keys with
    | none =>
      obtain ⟨hempty, rfl⟩ := h.2
      rw [hempty]
      cases keysAfter p s none e with
      | none => exact ⟨rfl, rfl⟩
      | some k => exact fun _ => .missing
    | some k =>
      obtain ⟨passphrase, hkeys⟩ := keysAfter_holds h.1 e
      rw [hkeys]
      exact fun id => (h.2 id).rekey
  · cases keys with
    | none => exact absurd hwrites (not_writes_unset h.1 h.2.1)
    | some k =>
      obtain ⟨passphrase, hkeys⟩ := keysAfter_holds h.1 e
      rw [hkeys, hput, htold]
      intro id
      obtain ⟨hown, hother⟩ := Writes.applied (m := m) ideal hjson h.1 hwrites id
      rw [Table.find?_put]
      split
      · rename_i hid
        exact (hown hid).rekey
      · rename_i hid
        rw [hother hid]
        exact (h.2 id).rekey

theorem holds_run (ideal : IdealAead p)
    (hjson : ∀ kind, (RecordPayload.json (T := Payload kind) p).Lossless)
    {keys : Option VaultKeys} {events : List Event} (h : s.Holds p m keys)
    (hlocal : ∀ e ∈ events, e.call.exchanges = false) :
    ∃ keys, (s.afterAll p events).Holds p (m.toldAll p s events) keys := by
  induction events generalizing s m keys with
  | nil => exact ⟨keys, h⟩
  | cons e rest ih =>
    obtain ⟨he, hrest⟩ := List.forall_mem_cons.mp hlocal
    exact ih (holds_step ideal hjson h he) hrest

end Written

section Read

variable {p : Primitives} {s : VaultStore} {k : VaultKeys} {m : Holdings} {kind : RecordKind}
  {r : EncryptedRecord}

theorem decryptRecord_of_keyed {T : Type} [RecordPayload T] (hs : s.HoldsKeys p k)
    (hopen : s.masterKey.isSome) :
    decryptRecord p T s r = openRecord p T k.masterKey k.vaultId r := by
  obtain ⟨masterKey, hk⟩ := Option.isSome_iff_exists.mp hopen
  obtain ⟨header, hh, hid, _⟩ := hs.header
  rw [decryptRecord_unlocked hk hh, hs.masterKey masterKey hk, hid]

variable (kind) in
theorem load_agrees (hs : s.HoldsKeys p k) (hopen : s.masterKey.isSome) {id : String}
    (h : Agrees p k (s.conn.db.records.find? id) (m.get id)) :
    loadRecordPayload p (Payload kind) s id kind = .ok (m.find kind id) := by
  unfold loadRecordPayload Storage.loadRecord Holdings.find
  generalize s.conn.db.records.find? id = row at h ⊢
  generalize m.get id = entry at h ⊢
  cases h with
  | missing => rfl
  | @gone r hdead =>
    rw [Option.filter_some]
    split
    · rfl
    · rename_i found hfound
      split at hfound
      · cases hfound
        rw [if_pos (Option.isSome_iff_ne_none.mpr hdead)]
        rfl
      · cases hfound
  | @there r value hlive hvalue _ =>
    rw [Option.filter_some, Option.bind_some]
    by_cases hkind : r.kind = kind
    · subst hkind
      rw [if_pos (beq_self_eq_true _)]
      dsimp only
      rw [hlive, if_neg (by simp), decryptRecord_of_keyed hs hopen, hvalue, Entry.as, dif_pos rfl]
      rfl
    · rw [if_neg (by simpa using hkind), Entry.as, dif_neg hkind]

/-- What the listing has of a row, if it opens. -/
def openedRow (p : Primitives) (s : VaultStore) (kind : RecordKind) (r : EncryptedRecord) :
    Option (Payload kind × Int) :=
  (decryptRecord p (Payload kind) s r).toOption.map (fun value => (value, r.modifiedAt))

/-- What a listing of the kind is made of. -/
def openedRows (p : Primitives) (s : VaultStore) (kind : RecordKind) :
    List (Payload kind × Int) :=
  (Storage.listRecordsByKind s.conn.db kind).filterMap (openedRow p s kind)

section Listing

variable (hs : s.HoldsKeys p k) (hopen : s.masterKey.isSome)
  (h : ∀ id, Agrees p k (s.conn.db.records.find? id) (m.get id))

include hs hopen h

/-- A row of the listing is the entry of its id. -/
theorem row_agrees (hr : r ∈ Storage.listRecordsByKind s.conn.db kind) :
    ∃ value, openedRow p s kind r = some (value, r.modifiedAt) ∧
      RecordPayload.recordId value = r.recordId ∧
      m.get r.recordId = some ⟨kind, value, r.modifiedAt⟩ := by
  obtain ⟨hrow, rfl, hlive⟩ := mem_listRecordsByKind.mp hr
  have hagrees := h r.recordId
  rw [Table.find?_of_mem hrow] at hagrees
  generalize hentry : m.get r.recordId = entry at hagrees
  cases hagrees with
  | gone hdead => exact absurd hlive hdead
  | there _ hvalue hid =>
    refine ⟨_, ?_, hid, rfl⟩
    unfold openedRow
    rw [decryptRecord_of_keyed hs hopen, hvalue]
    rfl

theorem openedRows_listed : m.Listed kind (openedRows p s kind) := by
  have hrule : Std.TransCmp (fun a b : EncryptedRecord => compare b.modifiedAt a.modifiedAt) :=
    inferInstanceAs (Std.TransCmp (fun a b => compareOn EncryptedRecord.modifiedAt b a))
  refine ⟨?_, ?_, ?_⟩
  · have hids : (Storage.listRecordsByKind s.conn.db kind).Pairwise
        (fun r q => r.recordId ≠ q.recordId) := by
      apply List.pairwise_map.mp
      apply ((orderBy_perm _ _).map EncryptedRecord.recordId).nodup_iff.mpr
      exact s.conn.db.records.unique.sublist (List.filter_sublist.map _)
    apply List.pairwise_map.mpr
    apply List.pairwise_filterMap.mpr
    apply hids.imp_of_mem
    intro r q hr hq hne x hx y hy
    obtain ⟨value, hvalue, hid, _⟩ := row_agrees hs hopen h hr
    obtain ⟨other, hother, hid', _⟩ := row_agrees hs hopen h hq
    cases hx.symm.trans hvalue
    cases hy.symm.trans hother
    rw [hid, hid']
    exact hne
  · apply List.pairwise_filterMap.mpr
    apply (orderBy_pairwise _ _).imp
    intro r q hle x hx y hy
    obtain ⟨_, _, rfl⟩ := Option.map_eq_some_iff.mp hx
    obtain ⟨_, _, rfl⟩ := Option.map_eq_some_iff.mp hy
    exact Std.isLE_compare.mp hle
  · intro value modifiedAt
    unfold openedRows
    rw [List.mem_filterMap]
    constructor
    · rintro ⟨r, hr, hvalue⟩
      obtain ⟨found, hfound, _, hget⟩ := row_agrees hs hopen h hr
      cases hfound.symm.trans hvalue
      exact ⟨r.recordId, hget⟩
    · rintro ⟨id, hget⟩
      have hagrees := h id
      rw [hget] at hagrees
      generalize hfind : s.conn.db.records.find? id = row at hagrees
      cases hagrees with
      | @there r _ hlive hvalue _ =>
        have hr : r ∈ s.conn.db.records.rows := Table.mem_of_find? hfind
        refine ⟨r, mem_listRecordsByKind.mpr ⟨hr, rfl, hlive⟩, ?_⟩
        unfold openedRow
        rw [decryptRecord_of_keyed hs hopen, hvalue]
        rfl

variable (kind) in
theorem list_agrees {S : Type} (summarize : Payload kind → Int → S) :
    listSummaries p s kind summarize =
      .ok ((openedRows p s kind).map (fun x => summarize x.1 x.2)) := by
  have hrow : ∀ r, (do
      let value ← decryptRecord p (Payload kind) s r
      return summarize value r.modifiedAt : VaultResult S).toOption =
        (openedRow p s kind r).map (fun x => summarize x.1 x.2) := by
    intro r
    unfold openedRow
    cases decryptRecord p (Payload kind) s r <;> rfl
  unfold listSummaries openedRows
  rw [mapM_ok_iff, List.map_filterMap]
  constructor
  · intro r hr
    obtain ⟨value, hvalue, _⟩ := row_agrees hs hopen h hr
    rw [hrow, hvalue]
    rfl
  · exact congrArg (List.filterMap · _) (funext fun r => (hrow r).symm)

theorem reads_back : s.ReadsBack p m where
  loadHost id := load_agrees .host hs hopen (h id)
  loadCredential id := load_agrees .passwordCredential hs hopen (h id)
  loadKey id := load_agrees .privateKey hs hopen (h id)
  loadForward id := load_agrees .portForward hs hopen (h id)
  hosts := ⟨openedRows p s .host, openedRows_listed hs hopen h,
    list_agrees .host hs hopen h VaultHostProfile.summary,
    list_agrees .host hs hopen h (fun host _ => VaultHostProfile.authSummary host)⟩
  credentials := ⟨openedRows p s .passwordCredential, openedRows_listed hs hopen h,
    list_agrees .passwordCredential hs hopen h VaultPasswordCredential.summary⟩
  keys := ⟨openedRows p s .privateKey, openedRows_listed hs hopen h,
    list_agrees .privateKey hs hopen h VaultPrivateKey.summary⟩
  forwards := ⟨openedRows p s .portForward, openedRows_listed hs hopen h,
    list_agrees .portForward hs hopen h VaultPortForwardProfile.summary⟩

end Listing

end Read

theorem payloads_lossless {p : Primitives} (hostJson : p.hostJson.Lossless)
    (credentialJson : p.credentialJson.Lossless) (privateKeyJson : p.privateKeyJson.Lossless)
    (portForwardJson : p.portForwardJson.Lossless) (kind : RecordKind) :
    (RecordPayload.json (T := Payload kind) p).Lossless := by
  cases kind with
  | host => exact hostJson
  | passwordCredential => exact credentialJson
  | privateKey => exact privateKeyJson
  | snippet => exact nofun
  | portForward => exact portForwardJson

/-- After any run of local calls from a new database, an open vault reads back what the answers
so far say it holds: under each id the value stored there last, unless it has been deleted since,
and in each listing every such value once, with the latest modification time first. -/
theorem reads_what_was_stored (p : Primitives) (ideal : IdealAead p)
    (hostJson : p.hostJson.Lossless) (credentialJson : p.credentialJson.Lossless)
    (privateKeyJson : p.privateKeyJson.Lossless) (portForwardJson : p.portForwardJson.Lossless)
    (path : String) (deviceStore : Table DeviceSecret.account) {events : List Event}
    (hlocal : ∀ e ∈ events, e.call.exchanges = false)
    (hopen : ((VaultStore.fresh path deviceStore).afterAll p events).masterKey.isSome) :
    ((VaultStore.fresh path deviceStore).afterAll p events).ReadsBack p
      (Holdings.toldAll p (.fresh path deviceStore) .empty events) := by
  have hjson := payloads_lossless hostJson credentialJson privateKeyJson portForwardJson
  obtain ⟨keys, hkeyed, hrows⟩ := holds_run ideal hjson (fresh_holds path deviceStore) hlocal
  cases keys with
  | none =>
    have hunset : ((VaultStore.fresh path deviceStore).afterAll p events).Unset := hkeyed
    rw [hunset.masterKey] at hopen
    cases hopen
  | some k => exact reads_back hkeyed hopen hrows

open Sample

def credentialCode : Code UInt8 VaultPasswordCredential :=
  (text.pair (text.pair (optionalText.pair text))).map
    (fun x => ⟨x.1, x.2.1, x.2.2.1, x.2.2.2⟩) (fun c => (c.id, c.label, c.usernameHint, c.secret))
    (fun _ => rfl)

/-- The primitives with codecs that read every value back. -/
def losslessPrimitives : Primitives :=
  { codedPrimitives with
    credentialJson := jsonOf credentialCode
    privateKeyJson := jsonOf privateKeyCode }

theorem lossless_ideal : IdealAead losslessPrimitives :=
  ⟨ideal_aead.seals, ideal_aead.opens, ideal_aead.only⟩

/-- A host is saved twice, its credential cannot be deleted, and the vault is opened again. -/
def saveTwice : List Event :=
  [⟨world 1, .createVault "pw" "d"⟩,
    ⟨world 2, .storePasswordCredential (credential "b")⟩,
    ⟨world 3, .storeHostProfile { host "a" with authOrder := [.password "b"] }⟩,
    ⟨world 4, .deletePasswordCredential "b"⟩,
    ⟨world 5, .storeHostProfile { host "a" with label := "spare", authOrder := [.password "b"] }⟩,
    ⟨world 6, .lock⟩,
    ⟨world 7, .storePasswordCredential (credential "c")⟩,
    ⟨world 8, .unlockWithPassphrase "pw" "d"⟩]

theorem reads_what_was_stored_twice :
    (Holdings.toldAll losslessPrimitives (.fresh "a.sqlite" .empty) .empty saveTwice).keys =
        ["b", "a"] ∧
      ((VaultStore.fresh "a.sqlite" .empty).afterAll losslessPrimitives saveTwice).ReadsBack
        losslessPrimitives
        (Holdings.toldAll losslessPrimitives (.fresh "a.sqlite" .empty) .empty saveTwice) := by
  refine ⟨by decide +kernel, ?_⟩
  apply reads_what_was_stored losslessPrimitives lossless_ideal (jsonOf_lossless hostCode)
    (jsonOf_lossless credentialCode) (jsonOf_lossless privateKeyCode)
    (jsonOf_lossless portForwardCode) "a.sqlite" .empty
  · decide +kernel
  · decide +kernel

end Seance.Vault
