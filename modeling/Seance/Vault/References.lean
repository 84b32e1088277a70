import Seance.Lib.Table
import Seance.Vault.Kinds
import Seance.Vault.Local
import Seance.Vault.Sample

namespace Seance.Vault
open Lib

/-- A live record of the kind stands under the id. -/
def VaultStore.HasLive (s : VaultStore) (id : String) (kind : RecordKind) : Prop :=
  ∃ r ∈ s.conn.db.records.rows, r.recordId = id ∧ r.kind = kind ∧ r.deletedAt = none

/-- Everything an authentication method needs is there. -/
def HostAuthRef.Resolves (s : VaultStore) : HostAuthRef → Prop
  | .password credentialId => s.HasLive credentialId .passwordCredential
  | .privateKey keyId passphraseId => s.HasLive keyId .privateKey ∧
      ∀ id, passphraseId = some id → s.HasLive id .passwordCredential

/-- The live records of a kind open under the vault's keys, each to a value of its own id. -/
def Reads (p : Primitives) (T : Type) [RecordPayload T] (kind : RecordKind) (k : VaultKeys)
    (t : Table EncryptedRecord.recordId) : Prop :=
  ∀ r ∈ t.rows, r.deletedAt = none → r.kind = kind →
    ∃ value, openRecord p T k.masterKey k.vaultId r = .ok value ∧
      RecordPayload.recordId value = r.recordId

/-- Every live host and port forward opens under the vault's keys, and what it names is there. -/
structure VaultStore.ReferencesIntact (p : Primitives) (s : VaultStore) (k : VaultKeys) :
    Prop where
  hosts : ∀ r ∈ s.conn.db.records.rows, r.deletedAt = none → r.kind = .host →
    ∃ host, openRecord p VaultHostProfile k.masterKey k.vaultId r = .ok host ∧
      host.id = r.recordId ∧ ∀ auth ∈ host.authOrder, auth.Resolves s
  forwards : ∀ r ∈ s.conn.db.records.rows, r.deletedAt = none → r.kind = .portForward →
    ∃ forward, openRecord p VaultPortForwardProfile k.masterKey k.vaultId r = .ok forward ∧
      forward.id = r.recordId ∧ s.HasLive forward.hostId .host

/-- The records an authentication method names. -/
def HostAuthRef.names : HostAuthRef → List (String × RecordKind)
  | .password credentialId => [(credentialId, .passwordCredential)]
  | .privateKey keyId none => [(keyId, .privateKey)]
  | .privateKey keyId (some id) => [(keyId, .privateKey), (id, .passwordCredential)]

/-- The references among the records of a vault. Nothing refers to a snippet. -/
def links (p : Primitives) (k : VaultKeys) : Linking String RecordKind EncryptedRecord where
  live r := r.deletedAt = none ∧ r.kind ≠ .snippet
  tag := EncryptedRecord.kind
  refersTo r id kind :=
    (r.kind = .host ∧ ∃ host, openRecord p VaultHostProfile k.masterKey k.vaultId r = .ok host ∧
      ∃ auth ∈ host.authOrder, (id, kind) ∈ auth.names) ∨
    (r.kind = .portForward ∧ kind = .host ∧
      ∃ forward, openRecord p VaultPortForwardProfile k.masterKey k.vaultId r = .ok forward ∧
        forward.hostId = id)

/-- What every permitted local call preserves. -/
structure Referring (p : Primitives) (k : VaultKeys) (t : Table EncryptedRecord.recordId) :
    Prop where
  intact : (links p k).Intact t
  hosts : Reads p VaultHostProfile .host k t
  forwards : Reads p VaultPortForwardProfile .portForward k t

section Written

variable {p : Primitives} {w : World} {s : VaultStore} {k : VaultKeys} {T : Type}
  [RecordPayload T] {value : T} {kind : RecordKind} {r : EncryptedRecord} {id : String}

theorem Reads.put {t : Table EncryptedRecord.recordId} (h : Reads p T kind k t)
    (hr : r.deletedAt = none → r.kind = kind →
      ∃ value, openRecord p T k.masterKey k.vaultId r = .ok value ∧
        RecordPayload.recordId value = r.recordId) : Reads p T kind k (t.put r) := by
  intro q hq
  rcases Table.mem_put.mp hq with rfl | ⟨hq, _⟩
  · exact hr
  · exact h q hq

theorem SealsValue.fields (h : SealsValue p w s value kind r) :
    r.recordId = targetId w (RecordPayload.recordId value) ∧ r.kind = kind ∧
      r.deletedAt = none := by
  obtain ⟨_, _, _, _, _, _, hseal⟩ := h
  obtain ⟨hid, hkind, _, _, hlive, _⟩ := sealRecord_fields hseal
  rw [recordId_withRecordId] at hid
  exact ⟨hid, hkind, hlive⟩

theorem Buries.fields (h : Buries w s id kind r) :
    r.recordId = id ∧ r.kind = kind ∧ r.deletedAt ≠ none := by
  obtain ⟨old, clock, hold, _, rfl⟩ := h
  obtain ⟨hfind, hkind⟩ := Storage.loadRecord_eq_some.mp hold
  have hid : old.recordId = id := Table.find?_key hfind
  exact ⟨hid, hkind, Option.some_ne_none _⟩

/-- What a store writes opens under the vault's keys to the value stored. -/
theorem SealsValue.opens (ideal : IdealAead p) (hjson : (RecordPayload.json (T := T) p).Lossless)
    (hs : s.HoldsKeys p k) (h : SealsValue p w s value kind r) :
    openRecord p T k.masterKey k.vaultId r = .ok (withRecordId w value) := by
  obtain ⟨masterKey, header, _, _, hk, hh, hseal⟩ := h
  have hopen := openRecord_sealed ideal hjson hseal
  rw [hs.masterKey masterKey hk, (hs.header_eq hh).1] at hopen
  exact hopen

theorem decryptRecord_keyed (hs : s.HoldsKeys p k) (h : decryptRecord p T s r = .ok value) :
    openRecord p T k.masterKey k.vaultId r = .ok value := by
  obtain ⟨masterKey, header, hk, hh, hopen⟩ := decryptRecord_ok h
  rw [hs.masterKey masterKey hk, (hs.header_eq hh).1] at hopen
  exact hopen

/-- A loaded record is there. -/
theorem hasLive_of_load {a : Option T} (h : loadRecordPayload p T s id kind = .ok a)
    (ha : a ≠ none) : s.HasLive id kind := by
  obtain ⟨value, rfl⟩ := Option.ne_none_iff_exists'.mp ha
  obtain ⟨r, hr, hid, hkind, hlive, _⟩ := loadRecordPayload_some h
  exact ⟨r, hr, hid, hkind, hlive⟩

end Written

section Checks

variable {p : Primitives} {s : VaultStore} {k : VaultKeys} {id : String} {kind : RecordKind}

theorem checkCredentialRef_ok (h : checkCredentialRef p s id = .ok ()) :
    s.HasLive id .passwordCredential := by
  obtain ⟨a, ha, h⟩ := except_bind_ok.mp h
  apply hasLive_of_load ha
  rintro rfl
  cases h

theorem checkPrivateKeyRef_ok (h : checkPrivateKeyRef p s id = .ok ()) :
    s.HasLive id .privateKey := by
  obtain ⟨a, ha, h⟩ := except_bind_ok.mp h
  apply hasLive_of_load ha
  rintro rfl
  cases h

theorem checkHostAuthRef_ok {auth : HostAuthRef} (h : checkHostAuthRef p s auth = .ok ())
    (hname : (id, kind) ∈ auth.names) : s.HasLive id kind := by
  cases auth with
  | password credentialId =>
    cases List.mem_singleton.mp hname
    exact checkCredentialRef_ok h
  | privateKey keyId passphraseId =>
    cases passphraseId with
    | none =>
      cases List.mem_singleton.mp hname
      exact checkPrivateKeyRef_ok h
    | some passphrase =>
      obtain ⟨_, hkey, hcredential⟩ := except_bind_ok.mp h
      rcases List.mem_cons.mp hname with hname | hname
      · cases hname
        exact checkPrivateKeyRef_ok hkey
      · cases List.mem_singleton.mp hname
        exact checkCredentialRef_ok hcredential

theorem validateHostAuthRefs_ok {auths : List HostAuthRef}
    (h : validateHostAuthRefs p s auths = .ok ()) {auth : HostAuthRef} (hauth : auth ∈ auths)
    (hname : (id, kind) ∈ auth.names) : s.HasLive id kind := by
  induction auths with
  | nil => cases hauth
  | cons first rest ih =>
    obtain ⟨_, hfirst, hrest⟩ := except_bind_ok.mp h
    rcases List.mem_cons.mp hauth with rfl | hauth
    · exact checkHostAuthRef_ok hfirst hname
    · exact ih hrest hauth

theorem validatePortForward_host {forward : VaultPortForwardProfile}
    (h : validatePortForward p forward s = .ok ()) : s.HasLive forward.hostId .host := by
  obtain ⟨_, _, h⟩ := except_bind_ok.mp h
  obtain ⟨a, ha, h⟩ := except_bind_ok.mp h
  apply hasLive_of_load ha
  rintro rfl
  cases h

/-- Nothing names a record as one of a kind it does not refer to. -/
theorem names_kind {auth : HostAuthRef} (h : (id, kind) ∈ auth.names) :
    (kind = .passwordCredential ∧ auth.usesCredential id = true) ∨
      (kind = .privateKey ∧ auth.usesPrivateKey id = true) := by
  cases auth with
  | password credentialId =>
    cases List.mem_singleton.mp h
    exact .inl ⟨rfl, beq_self_eq_true _⟩
  | privateKey keyId passphraseId =>
    cases passphraseId with
    | none =>
      cases List.mem_singleton.mp h
      exact .inr ⟨rfl, beq_self_eq_true _⟩
    | some passphrase =>
      rcases List.mem_cons.mp h with h | h
      · cases h
        exact .inr ⟨rfl, beq_self_eq_true _⟩
      · cases List.mem_singleton.mp h
        exact .inl ⟨rfl, beq_self_eq_true _⟩

theorem ensureHostNotReferenced_ok (h : ensureHostNotReferenced p id s = .ok ()) :
    ∃ forwards, activePortForwards p s = .ok forwards ∧
      forwards.find? (fun f => f.hostId == id) = none := by
  obtain ⟨forwards, hforwards, h⟩ := except_bind_ok.mp h
  refine ⟨forwards, hforwards, ?_⟩
  split at h
  · cases h
  · assumption

theorem ensureCredentialNotReferenced_ok (h : ensureCredentialNotReferenced p id s = .ok ()) :
    ∃ hosts, activeHosts p s = .ok hosts ∧
      hosts.find? (fun h => h.authOrder.any (HostAuthRef.usesCredential id)) = none := by
  obtain ⟨hosts, hhosts, h⟩ := except_bind_ok.mp h
  refine ⟨hosts, hhosts, ?_⟩
  split at h
  · cases h
  · assumption

theorem ensurePrivateKeyNotReferenced_ok (h : ensurePrivateKeyNotReferenced p id s = .ok ()) :
    ∃ hosts, activeHosts p s = .ok hosts ∧
      hosts.find? (fun h => h.authOrder.any (HostAuthRef.usesPrivateKey id)) = none := by
  obtain ⟨hosts, hhosts, h⟩ := except_bind_ok.mp h
  refine ⟨hosts, hhosts, ?_⟩
  split at h
  · cases h
  · assumption

/-- Where a scan finds nothing that passes a test, no live record opens to a value that does. -/
theorem scan_clear {T : Type} [RecordPayload T] {test : T → Bool} (hs : s.HoldsKeys p k)
    (h : ∃ values, activeRecords p T s kind = .ok values ∧ values.find? test = none)
    {q : EncryptedRecord} (hq : q ∈ s.conn.db.records.rows) (hlive : q.deletedAt = none)
    (hkind : q.kind = kind) {value : T}
    (hopen : openRecord p T k.masterKey k.vaultId q = .ok value) : ¬ test value = true := by
  obtain ⟨values, hvalues, hfind⟩ := h
  obtain ⟨found, hfound, hdecrypt⟩ := activeRecords_complete hvalues hq hkind hlive
  cases (decryptRecord_keyed hs hdecrypt).symm.trans hopen
  exact List.find?_eq_none.mp hfind value hfound

/-- A deletion whose scan goes through leaves no reference to its target behind. -/
theorem unreferenced (hs : s.HoldsKeys p k) {call : Call} {w : World} {r q : EncryptedRecord}
    (hchecked : call.Checked p s) (hwrites : call.Writes p w s r) (hdead : r.deletedAt ≠ none)
    (hq : q ∈ s.conn.db.records.rows) (hlive : q.deletedAt = none) :
    ¬ (links p k).refersTo q r.recordId r.kind := by
  intro hrefers
  cases call with
  | createVault _ _ | tryUnlockWithDevice | unlockWithPassphrase _ _ | rotatePassphrase _ _
  | lock | applySnapshot _ | applyDelta _ => exact hwrites
  | storeHostProfile _ | storePasswordCredential _ | storePrivateKey _ | storePortForward _ =>
    exact hdead (SealsValue.fields hwrites).2.2
  | generatePrivateKey _ | importPrivateKey _ =>
    obtain ⟨key, _, hwrites⟩ := hwrites
    exact hdead hwrites.fields.2.2
  | deleteHostProfile id =>
    obtain ⟨hid, hkind, _⟩ := Buries.fields hwrites
    rw [hid, hkind] at hrefers
    rcases hrefers with ⟨_, host, _, auth, _, hname⟩ | ⟨hforward, _, forward, hopen, hhost⟩
    · rcases names_kind hname with ⟨hno, _⟩ | ⟨hno, _⟩ <;> cases hno
    · exact scan_clear hs (ensureHostNotReferenced_ok hchecked) hq hlive hforward hopen
        (beq_iff_eq.mpr hhost)
  | deletePasswordCredential id =>
    obtain ⟨hid, hkind, _⟩ := Buries.fields hwrites
    rw [hid, hkind] at hrefers
    rcases hrefers with ⟨hhost, host, hopen, auth, hauth, hname⟩ | ⟨_, hno, _⟩
    · rcases names_kind hname with ⟨_, huses⟩ | ⟨hno, _⟩
      · exact scan_clear hs (ensureCredentialNotReferenced_ok hchecked) hq hlive hhost hopen
          (List.any_eq_true.mpr ⟨auth, hauth, huses⟩)
      · cases hno
    · cases hno
  | deletePrivateKey id =>
    obtain ⟨hid, hkind, _⟩ := Buries.fields hwrites
    rw [hid, hkind] at hrefers
    rcases hrefers with ⟨hhost, host, hopen, auth, hauth, hname⟩ | ⟨_, hno, _⟩
    · rcases names_kind hname with ⟨hno, _⟩ | ⟨_, huses⟩
      · cases hno
      · exact scan_clear hs (ensurePrivateKeyNotReferenced_ok hchecked) hq hlive hhost hopen
          (List.any_eq_true.mpr ⟨auth, hauth, huses⟩)
    · cases hno
  | deletePortForward id =>
    obtain ⟨hid, hkind, _⟩ := Buries.fields hwrites
    rw [hid, hkind] at hrefers
    rcases hrefers with ⟨_, host, _, auth, _, hname⟩ | ⟨_, hno, _⟩
    · rcases names_kind hname with ⟨hno, _⟩ | ⟨hno, _⟩ <;> cases hno
    · cases hno

end Checks

section Written

variable {p : Primitives} {w : World} {s : VaultStore} {k : VaultKeys} {call : Call}
  {r : EncryptedRecord}

/-- An edit writes the record it is about. -/
theorem Writes.target (h : call.Writes p w s r) : call.target w = some (r.recordId, r.kind) := by
  cases call with
  | createVault _ _ | tryUnlockWithDevice | unlockWithPassphrase _ _ | rotatePassphrase _ _
  | lock | applySnapshot _ | applyDelta _ => exact h.elim
  | storeHostProfile _ | storePasswordCredential _ | storePrivateKey _ | storePortForward _ =>
    obtain ⟨hid, hkind, _⟩ := SealsValue.fields h
    rw [hid, hkind]
    rfl
  | generatePrivateKey request =>
    obtain ⟨key, hkey, hseal⟩ := h
    obtain ⟨hid, hkind, _⟩ := hseal.fields
    have hempty : RecordPayload.recordId key = "" := generatedPrivateKey_id hkey
    rw [hid, hkind, hempty]
    rfl
  | importPrivateKey request =>
    obtain ⟨key, hkey, hseal⟩ := h
    obtain ⟨hid, hkind, _⟩ := hseal.fields
    have hempty : RecordPayload.recordId key = "" := importedPrivateKey_id hkey
    rw [hid, hkind, hempty]
    rfl
  | deleteHostProfile _ | deletePasswordCredential _ | deletePrivateKey _
  | deletePortForward _ =>
    obtain ⟨hid, hkind, _⟩ := Buries.fields h
    rw [hid, hkind]
    rfl

/-- A live host that is written comes from a `store_host_profile`. -/
theorem Writes.host (h : call.Writes p w s r) (hlive : r.deletedAt = none)
    (hkind : r.kind = .host) :
    ∃ host, call = .storeHostProfile host ∧ SealsValue p w s host .host r := by
  cases call with
  | createVault _ _ | tryUnlockWithDevice | unlockWithPassphrase _ _ | rotatePassphrase _ _
  | lock | applySnapshot _ | applyDelta _ => exact h.elim
  | storeHostProfile host => exact ⟨host, rfl, h⟩
  | storePasswordCredential _ | storePrivateKey _ | storePortForward _ =>
    cases hkind.symm.trans (SealsValue.fields h).2.1
  | generatePrivateKey _ | importPrivateKey _ =>
    obtain ⟨key, _, hseal⟩ := h
    cases hkind.symm.trans hseal.fields.2.1
  | deleteHostProfile _ | deletePasswordCredential _ | deletePrivateKey _
  | deletePortForward _ => exact absurd hlive (Buries.fields h).2.2

/-- A live port forward that is written comes from a `store_port_forward`. -/
theorem Writes.portForward (h : call.Writes p w s r) (hlive : r.deletedAt = none)
    (hkind : r.kind = .portForward) :
    ∃ forward, call = .storePortForward forward ∧ SealsValue p w s forward .portForward r := by
  cases call with
  | createVault _ _ | tryUnlockWithDevice | unlockWithPassphrase _ _ | rotatePassphrase _ _
  | lock | applySnapshot _ | applyDelta _ => exact h.elim
  | storePortForward forward => exact ⟨forward, rfl, h⟩
  | storeHostProfile _ | storePasswordCredential _ | storePrivateKey _ =>
    cases hkind.symm.trans (SealsValue.fields h).2.1
  | generatePrivateKey _ | importPrivateKey _ =>
    obtain ⟨key, _, hseal⟩ := h
    cases hkind.symm.trans hseal.fields.2.1
  | deleteHostProfile _ | deletePasswordCredential _ | deletePrivateKey _
  | deletePortForward _ => exact absurd hlive (Buries.fields h).2.2

theorem target_not_snippet {id : String} {kind : RecordKind}
    (h : call.target w = some (id, kind)) : kind ≠ .snippet := by
  rintro rfl
  cases call <;> simp [Call.target] at h

theorem withRecordId_authOrder (w : World) (host : VaultHostProfile) :
    (withRecordId w host).authOrder = host.authOrder := by
  unfold withRecordId
  split <;> rfl

theorem withRecordId_hostId (w : World) (forward : VaultPortForwardProfile) :
    (withRecordId w forward).hostId = forward.hostId := by
  unfold withRecordId
  split <;> rfl

theorem liveAt_of_hasLive {id : String} {kind : RecordKind} (h : s.HasLive id kind)
    (hkind : kind ≠ .snippet) : (links p k).LiveAt s.conn.db.records id kind := by
  obtain ⟨q, hq, hid, rfl, hlive⟩ := h
  exact ⟨q, hq, hid, rfl, hlive, hkind⟩

theorem hasLive_of_liveAt {id : String} {kind : RecordKind}
    (h : (links p k).LiveAt s.conn.db.records id kind) : s.HasLive id kind := by
  obtain ⟨q, hq, hid, hkind, hlive, _⟩ := h
  exact ⟨q, hq, hid, hkind, hlive⟩

variable (ideal : IdealAead p) (hostJson : p.hostJson.Lossless)
  (portForwardJson : p.portForwardJson.Lossless)

include ideal hostJson portForwardJson

/-- What a stored record refers to has been found there. -/
theorem stored_references (hs : s.HoldsKeys p k) (hchecked : call.Checked p s)
    (hwrites : call.Writes p w s r) (hlive : r.deletedAt = none) (id : String)
    (kind : RecordKind) (hrefers : (links p k).refersTo r id kind) :
    (links p k).LiveAt s.conn.db.records id kind := by
  rcases hrefers with ⟨hhost, host, hopen, auth, hauth, hname⟩ |
    ⟨hforward, rfl, forward, hopen, rfl⟩
  · obtain ⟨stored, rfl, hseal⟩ := Writes.host hwrites hlive hhost
    cases (hseal.opens ideal hostJson hs).symm.trans hopen
    rw [withRecordId_authOrder] at hauth
    apply liveAt_of_hasLive (validateHostAuthRefs_ok hchecked hauth hname)
    rcases names_kind hname with ⟨rfl, _⟩ | ⟨rfl, _⟩ <;> decide
  · obtain ⟨stored, rfl, hseal⟩ := Writes.portForward hwrites hlive hforward
    cases (hseal.opens ideal portForwardJson hs).symm.trans hopen
    rw [withRecordId_hostId]
    exact liveAt_of_hasLive (validatePortForward_host hchecked) (by decide)

/-- Every edit that keeps the kinds apart leaves the references among the records intact. -/
theorem referring_rule : RecordsRule p KindsApart (Referring p) where
  empty k := by
    refine ⟨Linking.Intact.empty, ?_, ?_⟩
    · intro r hr
      cases hr
    · intro r hr
      cases hr
  rekey _ _ _ h := ⟨h.intact, h.hosts, h.forwards⟩
  edit s k e r hs h hapart hchecked hwrites := by
    have htarget := Writes.target hwrites
    have hsame : (links p k).Replaces s.conn.db.records r := by
      intro q hq hqlive hid
      have hfree : s.FreeFor r.recordId r.kind := by
        unfold KindsApart at hapart
        split at hapart
        · rename_i delta hcall
          rw [hcall] at hwrites
          exact hwrites.elim
        · exact hapart _ _ htarget
      exact hfree q hq hqlive.1 hqlive.2 hid
    refine ⟨?_, h.hosts.put ?_, h.forwards.put ?_⟩
    · by_cases hlive : r.deletedAt = none
      · exact h.intact.put_live ⟨hlive, target_not_snippet htarget⟩ hsame
          (stored_references ideal hostJson portForwardJson hs hchecked hwrites hlive)
      · apply h.intact.put_dead (fun hr => hlive hr.1) hsame
        intro q hq hqlive
        exact unreferenced hs hchecked hwrites hlive hq hqlive.1
    · intro hlive hkind
      obtain ⟨host, _, hseal⟩ := Writes.host hwrites hlive hkind
      refine ⟨_, hseal.opens ideal hostJson hs, ?_⟩
      rw [recordId_withRecordId, hseal.fields.1]
    · intro hlive hkind
      obtain ⟨forward, _, hseal⟩ := Writes.portForward hwrites hlive hkind
      refine ⟨_, hseal.opens ideal portForwardJson hs, ?_⟩
      rw [recordId_withRecordId, hseal.fields.1]

end Written

theorem Referring.referencesIntact {p : Primitives} {s : VaultStore} {k : VaultKeys}
    (h : Referring p k s.conn.db.records) : s.ReferencesIntact p k := by
  constructor
  · intro r hr hlive hkind
    obtain ⟨host, hopen, hid⟩ := h.hosts r hr hlive hkind
    refine ⟨host, hopen, hid, ?_⟩
    have hnames : ∀ auth ∈ host.authOrder, ∀ id kind, (id, kind) ∈ auth.names →
        s.HasLive id kind := by
      intro auth hauth id kind hname
      apply hasLive_of_liveAt (h.intact r hr ⟨hlive, by rw [hkind]; decide⟩ id kind _)
      exact .inl ⟨hkind, host, hopen, auth, hauth, hname⟩
    intro auth hauth
    have hauthNames := hnames auth hauth
    cases auth with
    | password credentialId => exact hauthNames _ _ List.mem_cons_self
    | privateKey keyId passphraseId =>
      cases passphraseId with
      | none => exact ⟨hauthNames _ _ List.mem_cons_self, fun id hid => by cases hid⟩
      | some passphrase =>
        refine ⟨hauthNames _ _ List.mem_cons_self, ?_⟩
        intro id hid
        cases hid
        exact hauthNames _ _ (List.mem_cons_of_mem _ List.mem_cons_self)
  · intro r hr hlive hkind
    obtain ⟨forward, hopen, hid⟩ := h.forwards r hr hlive hkind
    refine ⟨forward, hopen, hid, ?_⟩
    apply hasLive_of_liveAt (h.intact r hr ⟨hlive, by rw [hkind]; decide⟩ _ _ _)
    exact .inr ⟨hkind, rfl, forward, hopen, rfl⟩

/-- After any run of local calls that stores nothing under the id of a record of another kind:
every live host and port forward opens under the keys of the vault, locked or not, and what
it names is there. -/
theorem references_intact (p : Primitives) (ideal : IdealAead p)
    (hostJson : p.hostJson.Lossless) (portForwardJson : p.portForwardJson.Lossless)
    (path : String) (deviceStore : Table DeviceSecret.account) {events : List Event}
    (h : VaultStore.AllEvents p (fun s e => e.call.exchanges = false ∧ KindsApart s e)
      (.fresh path deviceStore) events) :
    let s := (VaultStore.fresh path deviceStore).afterAll p events
    ∃ keys, s.Keyed p keys ∧ (keys = none → s.conn.db.records = .empty) ∧
      ∀ k, keys = some k → s.ReferencesIntact p k := by
  intro s
  obtain ⟨keys, hkeyed, hrecords⟩ := (referring_rule ideal hostJson portForwardJson).run ideal
    path deviceStore h
  refine ⟨keys, hkeyed, ?_, ?_⟩
  · rintro rfl
    exact hrecords
  · rintro k rfl
    exact Referring.referencesIntact hrecords

theorem freeFor_of_all {s : VaultStore} {id : String} {kind : RecordKind}
    (h : s.conn.db.records.rows.all (fun r => r.recordId != id || r.kind == kind) = true) :
    s.FreeFor id kind := by
  intro r hr _ _ hid
  have htest := List.all_eq_true.mp h r hr
  rw [hid, bne_self_eq_false, Bool.false_or] at htest
  exact beq_iff_eq.mp htest

open Sample in
/-- A credential, and a host that uses it. -/
def createWithLogin : List Event :=
  [⟨world 1, .createVault "pw" "d"⟩,
    ⟨world 2, .storePasswordCredential (credential "b")⟩,
    ⟨world 3, .storeHostProfile { host "a" with authOrder := [.password "b"] }⟩,
    ⟨world 4, .deletePasswordCredential "b"⟩]

open Sample in
/-- The credential of a live host is still live after an attempt to delete it. -/
theorem references_intact_login :
    let s := (VaultStore.fresh "a.sqlite" .empty).afterAll codedPrimitives createWithLogin
    (Storage.listRecordsByKind s.conn.db .passwordCredential).length = 1 ∧
      ∃ keys, s.Keyed codedPrimitives keys ∧ (keys = none → s.conn.db.records = .empty) ∧
        ∀ k, keys = some k → s.ReferencesIntact codedPrimitives k := by
  have hrun : VaultStore.AllEvents codedPrimitives
      (fun s e => e.call.exchanges = false ∧ KindsApart s e) (.fresh "a.sqlite" .empty)
      createWithLogin := by
    refine ⟨⟨rfl, ?_⟩, ⟨rfl, ?_⟩, ⟨rfl, ?_⟩, ⟨rfl, ?_⟩, trivial⟩
    · intro id kind htarget
      cases htarget
    all_goals
      intro id kind htarget
      cases htarget
      apply freeFor_of_all
      decide +kernel
  refine ⟨by decide +kernel, ?_⟩
  exact references_intact codedPrimitives coded_ideal (jsonOf_lossless hostCode)
    (jsonOf_lossless portForwardCode) "a.sqlite" .empty hrun

end Seance.Vault
