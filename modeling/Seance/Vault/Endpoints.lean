import Seance.Vault.References

namespace Seance.Vault
open Lib

/-- Two forwards of one host and mode listen on one port, at addresses that are equal up to
surrounding whitespace and the case of ASCII letters. -/
def SameEndpoint (f g : VaultPortForwardProfile) : Prop :=
  f.hostId = g.hostId ∧ f.mode = g.mode ∧ f.listenPort = g.listenPort ∧
    eqIgnoreAsciiCase (trim f.listenAddress) (trim g.listenAddress) = true

/-- No two live port forwards share an endpoint. -/
def EndpointsUnique (p : Primitives) (k : VaultKeys) (t : Table EncryptedRecord.recordId) : Prop :=
  ∀ r ∈ t.rows, r.deletedAt = none → r.kind = .portForward →
    ∀ q ∈ t.rows, q.deletedAt = none → q.kind = .portForward → q.recordId ≠ r.recordId →
      ∀ f g, openRecord p VaultPortForwardProfile k.masterKey k.vaultId r = .ok f →
        openRecord p VaultPortForwardProfile k.masterKey k.vaultId q = .ok g →
        ¬ SameEndpoint f g

/-- A forward that a store compares with the live ones: its fields pass their checks, and its host
is there. -/
structure Compared (p : Primitives) (s : VaultStore) (f : VaultPortForwardProfile) : Prop where
  fields : validatePortForwardFields f = .ok ()
  host : ∃ host, loadHostProfile p s f.hostId = .ok (some host)

/-- The live forwards that a stored one is compared with are stored trimmed where they share
its endpoint. -/
def TrimmedRivals (p : Primitives) (s : VaultStore) (e : Event) : Prop :=
  ∀ f, e.call = .storePortForward f → Compared p s f →
    ∀ forwards, activePortForwards p s = .ok forwards →
      ∀ g ∈ forwards, g.id ≠ f.id → SameEndpoint g f → trim g.listenAddress = g.listenAddress

/-- What every permitted local call preserves. -/
structure Listening (p : Primitives) (k : VaultKeys) (t : Table EncryptedRecord.recordId) :
    Prop where
  unique : EndpointsUnique p k t
  forwards : Reads p VaultPortForwardProfile .portForward k t
  named : ∀ r ∈ t.rows, r.deletedAt = none → r.kind = .portForward → r.recordId ≠ ""

section Endpoint

variable {f g : VaultPortForwardProfile}

theorem eqIgnoreAsciiCase_symm {a b : String} (h : eqIgnoreAsciiCase a b = true) :
    eqIgnoreAsciiCase b a = true := by
  unfold eqIgnoreAsciiCase at h ⊢
  rw [decide_eq_true_eq] at h ⊢
  exact h.symm

theorem SameEndpoint.symm (h : SameEndpoint f g) : SameEndpoint g f := by
  obtain ⟨hhost, hmode, hport, haddress⟩ := h
  exact ⟨hhost.symm, hmode.symm, hport.symm, eqIgnoreAsciiCase_symm haddress⟩

theorem sameEndpoint_withRecordId (w : World) :
    SameEndpoint (withRecordId w f) g ↔ SameEndpoint f g := by
  unfold withRecordId
  split <;> exact Iff.rfl

/-- The check of the code finds a forward of one endpoint that is stored trimmed. -/
theorem sameListenEndpoint_of (hid : g.id ≠ f.id) (h : SameEndpoint g f)
    (htrimmed : trim g.listenAddress = g.listenAddress) : sameListenEndpoint f g = true := by
  obtain ⟨hhost, hmode, hport, haddress⟩ := h
  rw [htrimmed] at haddress
  unfold sameListenEndpoint
  simp only [Bool.and_eq_true, bne_iff_ne, beq_iff_eq]
  exact ⟨⟨⟨⟨hid, hhost⟩, hmode⟩, hport⟩, haddress⟩

theorem validatePortForward_ok {p : Primitives} {s : VaultStore}
    (h : validatePortForward p f s = .ok ()) :
    Compared p s f ∧ ∃ forwards, activePortForwards p s = .ok forwards ∧
      forwards.find? (sameListenEndpoint f) = none := by
  obtain ⟨_, hfields, h⟩ := except_bind_ok.mp h
  obtain ⟨a, hhost, h⟩ := except_bind_ok.mp h
  cases a with
  | none => cases h
  | some host =>
    obtain ⟨forwards, hforwards, h⟩ := except_bind_ok.mp h
    refine ⟨⟨hfields, host, hhost⟩, forwards, hforwards, ?_⟩
    split at h
    · cases h
    · assumption

end Endpoint

section Rule

variable {p : Primitives} {s : VaultStore} {k : VaultKeys} {e : Event} {r : EncryptedRecord}
  {f : VaultPortForwardProfile}

/-- A forward that passes the check among trimmed rivals shares its endpoint with no other. -/
theorem stored_endpoint (hs : s.HoldsKeys p k) (h : Listening p k s.conn.db.records)
    (hrivals : TrimmedRivals p s e) (hcall : e.call = .storePortForward f)
    (hvalid : validatePortForward p f s = .ok ())
    (hr : r.recordId = targetId e.world f.id) {q : EncryptedRecord}
    (hq : q ∈ s.conn.db.records.rows) (hlive : q.deletedAt = none) (hkind : q.kind = .portForward)
    (hne : q.recordId ≠ r.recordId) {g : VaultPortForwardProfile}
    (hopen : openRecord p VaultPortForwardProfile k.masterKey k.vaultId q = .ok g) :
    ¬ SameEndpoint g f := by
  intro hsame
  obtain ⟨hcompared, forwards, hforwards, hfind⟩ := validatePortForward_ok hvalid
  obtain ⟨found, hfound, hdecrypt⟩ := activeRecords_complete hforwards hq hkind hlive
  cases (decryptRecord_keyed hs hdecrypt).symm.trans hopen
  obtain ⟨value, hvalue, hid⟩ := h.forwards q hq hlive hkind
  cases hvalue.symm.trans hopen
  have hgid : g.id = q.recordId := hid
  have hother : g.id ≠ f.id := by
    intro heq
    rw [hr, ← hgid] at hne
    unfold targetId at hne
    split at hne
    · rename_i hempty
      exact h.named q hq hlive hkind (hgid.symm.trans (heq.trans hempty))
    · exact hne heq
  have htrimmed := hrivals f hcall hcompared forwards hforwards g hfound hother hsame
  exact List.find?_eq_none.mp hfind g hfound (sameListenEndpoint_of hother hsame htrimmed)

/-- Every edit whose rivals are trimmed keeps the endpoints apart. -/
theorem listening_rule (ideal : IdealAead p) (hjson : p.portForwardJson.Lossless) :
    RecordsRule p (TrimmedRivals p) (Listening p) where
  empty k := by
    refine ⟨?_, ?_, ?_⟩
    · intro r hr
      cases hr
    · intro r hr
      cases hr
    · intro r hr
      cases hr
  rekey _ _ _ h := ⟨h.unique, h.forwards, h.named⟩
  edit s k e r hs h hrivals hchecked hwrites := by
    have hstored : r.deletedAt = none → r.kind = .portForward → ∃ f,
        e.call = .storePortForward f ∧ r.recordId = targetId e.world f.id ∧
        openRecord p VaultPortForwardProfile k.masterKey k.vaultId r =
          .ok (withRecordId e.world f) := by
      intro hlive hkind
      obtain ⟨f, hcall, hseal⟩ := Writes.portForward hwrites hlive hkind
      exact ⟨f, hcall, hseal.fields.1, hseal.opens ideal hjson hs⟩
    have happart : r.deletedAt = none → r.kind = .portForward →
        ∀ q ∈ s.conn.db.records.rows, q.deletedAt = none → q.kind = .portForward →
          q.recordId ≠ r.recordId → ∀ f g,
          openRecord p VaultPortForwardProfile k.masterKey k.vaultId r = .ok f →
          openRecord p VaultPortForwardProfile k.masterKey k.vaultId q = .ok g →
          ¬ SameEndpoint g f := by
      intro hlive hkind q hq hqlive hqkind hne f g hf hg hsame
      obtain ⟨stored, hcall, hid, hopen⟩ := hstored hlive hkind
      cases hopen.symm.trans hf
      have hvalid : validatePortForward p stored s = .ok () := by
        rw [hcall] at hchecked
        exact hchecked
      have hsame' := (sameEndpoint_withRecordId e.world).mp hsame.symm
      exact stored_endpoint hs h hrivals hcall hvalid hid hq hqlive hqkind hne hg hsame'.symm
    refine ⟨?_, h.forwards.put ?_, ?_⟩
    · intro a ha halive hakind b hb hblive hbkind hne f g hf hg hsame
      rcases Table.mem_put.mp ha with rfl | ⟨haold, _⟩
      · rcases Table.mem_put.mp hb with rfl | ⟨hbold, _⟩
        · exact hne rfl
        · exact happart halive hakind b hbold hblive hbkind hne f g hf hg hsame.symm
      · rcases Table.mem_put.mp hb with rfl | ⟨hbold, _⟩
        · exact happart hblive hbkind a haold halive hakind (Ne.symm hne) g f hg hf hsame
        · exact h.unique a haold halive hakind b hbold hblive hbkind hne f g hf hg hsame
    · intro hlive hkind
      obtain ⟨f, _, hid, hopen⟩ := hstored hlive hkind
      refine ⟨_, hopen, ?_⟩
      rw [recordId_withRecordId, hid]
      rfl
    · intro q hq hlive hkind
      rcases Table.mem_put.mp hq with rfl | ⟨hqold, _⟩
      · obtain ⟨f, _, hid, _⟩ := hstored hlive hkind
        rw [hid]
        exact targetId_ne_empty _ _
      · exact h.named q hqold hlive hkind

end Rule

/-- In a run of local calls that compares every port forward it stores with trimmed rivals
only, no two live port forwards ever share an endpoint. -/
theorem endpoints_unique (p : Primitives) (ideal : IdealAead p)
    (portForwardJson : p.portForwardJson.Lossless) (path : String)
    (deviceStore : Table DeviceSecret.account) {events : List Event}
    (h : VaultStore.AllEvents p (fun s e => e.call.exchanges = false ∧ TrimmedRivals p s e)
      (.fresh path deviceStore) events) :
    let s := (VaultStore.fresh path deviceStore).afterAll p events
    ∃ keys, s.Keyed p keys ∧ (keys = none → s.conn.db.records = .empty) ∧
      ∀ k, keys = some k → EndpointsUnique p k s.conn.db.records := by
  intro s
  obtain ⟨keys, hkeyed, hrecords⟩ := (listening_rule ideal portForwardJson).run ideal path
    deviceStore h
  refine ⟨keys, hkeyed, ?_, ?_⟩
  · rintro rfl
    exact hrecords
  · rintro k rfl
    exact hrecords.unique

section Samples
open Sample

def forward (id listenAddress : String) : VaultPortForwardProfile where
  id := id
  hostId := "a"
  label := "web"
  mode := .local
  listenAddress := listenAddress
  listenPort := 80
  targetAddress := "localhost"
  targetPort := 80
  notes := none

/-- A vault with a host and two port forwards of it. -/
def createWithForwards (first second : VaultPortForwardProfile) : List Event :=
  [⟨world 1, .createVault "pw" "d"⟩,
    ⟨world 2, .storeHostProfile (host "a")⟩,
    ⟨world 3, .storePortForward first⟩,
    ⟨world 4, .storePortForward second⟩]

/-- Two forwards at different addresses. -/
theorem endpoints_unique_two :
    let s := (VaultStore.fresh "a.sqlite" .empty).afterAll codedPrimitives
      (createWithForwards (forward "f" "127.0.0.1") (forward "g" "localhost"))
    (Storage.listRecordsByKind s.conn.db .portForward).length = 2 ∧
      ∃ keys, s.Keyed codedPrimitives keys ∧ (keys = none → s.conn.db.records = .empty) ∧
        ∀ k, keys = some k → EndpointsUnique codedPrimitives k s.conn.db.records := by
  have hrun : VaultStore.AllEvents codedPrimitives
      (fun s e => e.call.exchanges = false ∧ TrimmedRivals codedPrimitives s e)
      (.fresh "a.sqlite" .empty)
      (createWithForwards (forward "f" "127.0.0.1") (forward "g" "localhost")) := by
    refine ⟨⟨rfl, ?_⟩, ⟨rfl, ?_⟩, ⟨rfl, ?_⟩, ⟨rfl, ?_⟩, trivial⟩
    · intro f hcall
      cases hcall
    · intro f hcall
      cases hcall
    · intro f hcall _ forwards hforwards g hg
      have hnone : activePortForwards codedPrimitives (((VaultStore.fresh "a.sqlite" .empty).after
          codedPrimitives ⟨world 1, .createVault "pw" "d"⟩).after codedPrimitives
            ⟨world 2, .storeHostProfile (host "a")⟩) = .ok [] := by decide +kernel
      rw [← Except.ok.inj (hnone.symm.trans hforwards)] at hg
      cases hg
    · intro f hcall _ forwards hforwards g hg _ hsame
      cases hcall
      have hone : activePortForwards codedPrimitives
          ((((VaultStore.fresh "a.sqlite" .empty).after
            codedPrimitives ⟨world 1, .createVault "pw" "d"⟩).after codedPrimitives
              ⟨world 2, .storeHostProfile (host "a")⟩).after codedPrimitives
                ⟨world 3, .storePortForward (forward "f" "127.0.0.1")⟩) =
          .ok [forward "f" "127.0.0.1"] := by decide +kernel
      rw [← Except.ok.inj (hone.symm.trans hforwards)] at hg
      rw [List.mem_singleton.mp hg] at hsame
      exact absurd hsame.2.2.2 (by decide)
  refine ⟨by decide +kernel, ?_⟩
  exact endpoints_unique codedPrimitives coded_ideal (jsonOf_lossless portForwardCode)
    "a.sqlite" .empty hrun

/-- An address stored with a trailing blank is not recognised: both forwards are live. -/
theorem untrimmed_endpoint_duplicated :
    let s := (VaultStore.fresh "a.sqlite" .empty).afterAll codedPrimitives
      (createWithForwards (forward "f" "127.0.0.1 ") (forward "g" "127.0.0.1"))
    loadPortForward codedPrimitives s "f" = .ok (some (forward "f" "127.0.0.1 ")) ∧
      loadPortForward codedPrimitives s "g" = .ok (some (forward "g" "127.0.0.1")) ∧
      SameEndpoint (forward "f" "127.0.0.1 ") (forward "g" "127.0.0.1") ∧
      s.masterKey = some (key 1) ∧
      ¬ EndpointsUnique codedPrimitives ⟨"v", key 1, "pw"⟩ s.conn.db.records := by
  intro s
  have hsame : SameEndpoint (forward "f" "127.0.0.1 ") (forward "g" "127.0.0.1") :=
    ⟨rfl, rfl, rfl, by decide⟩
  obtain ⟨hf, hg, hk, hid⟩ :
      loadPortForward codedPrimitives s "f" = .ok (some (forward "f" "127.0.0.1 ")) ∧
      loadPortForward codedPrimitives s "g" = .ok (some (forward "g" "127.0.0.1")) ∧
      s.masterKey = some (key 1) ∧ s.header.map VaultHeader.vaultId = some "v" := by
    decide +kernel
  refine ⟨hf, hg, hsame, hk, ?_⟩
  intro hunique
  obtain ⟨header, hh, hvault⟩ := Option.map_eq_some_iff.mp hid
  obtain ⟨r, hr, hrid, hrkind, hrlive, hropen⟩ := loadRecordPayload_some hf
  obtain ⟨q, hq, hqid, hqkind, hqlive, hqopen⟩ := loadRecordPayload_some hg
  rw [decryptRecord_unlocked hk hh, hvault] at hropen hqopen
  refine hunique r hr hrlive hrkind q hq hqlive hqkind ?_ _ _ hropen hqopen hsame
  rw [hrid, hqid]
  decide

end Samples

end Seance.Vault
