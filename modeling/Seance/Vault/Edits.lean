import Seance.Vault.Effects

namespace Seance.Vault
open Lib

/-- The record seals the value, under the id the value ends up with. -/
def SealsValue (p : Primitives) (w : World) (s : VaultStore) {T : Type} [RecordPayload T]
    (value : T) (kind : RecordKind) (r : EncryptedRecord) : Prop :=
  ∃ masterKey header clock previous, s.masterKey = some masterKey ∧ s.header = some header ∧
    sealRecord p w masterKey header.vaultId (withRecordId w value) kind clock previous = .ok r

/-- The record is the tombstone of a live one. -/
def Buries (w : World) (s : VaultStore) (id : String) (kind : RecordKind)
    (r : EncryptedRecord) : Prop :=
  ∃ old clock, Storage.loadRecord s.conn.db id kind = some old ∧ old.deletedAt = none ∧
    r = tombstone old clock (w.now 1)

/-- What an edit has checked by the time it writes. -/
def Call.Checked (p : Primitives) (s : VaultStore) : Call → Prop
  | .storeHostProfile host => validateHostAuthRefs p s host.authOrder = .ok ()
  | .storePortForward portForward => validatePortForward p portForward s = .ok ()
  | .deleteHostProfile id => ensureHostNotReferenced p id s = .ok ()
  | .deletePasswordCredential id => ensureCredentialNotReferenced p id s = .ok ()
  | .deletePrivateKey id => ensurePrivateKeyNotReferenced p id s = .ok ()
  | _ => True

/-- The record an edit writes. -/
def Call.Writes (p : Primitives) (w : World) (s : VaultStore) : Call → EncryptedRecord → Prop
  | .storeHostProfile host, r => SealsValue p w s host .host r
  | .storePasswordCredential credential, r => SealsValue p w s credential .passwordCredential r
  | .storePrivateKey key, r => SealsValue p w s key .privateKey r
  | .storePortForward portForward, r => SealsValue p w s portForward .portForward r
  | .generatePrivateKey request, r => ∃ key, generatedPrivateKey w request = .ok key ∧
      SealsValue p w s key .privateKey r
  | .importPrivateKey request, r => ∃ key, importedPrivateKey p request = .ok key ∧
      SealsValue p w s key .privateKey r
  | .deleteHostProfile id, r => Buries w s id .host r
  | .deletePasswordCredential id, r => Buries w s id .passwordCredential r
  | .deletePrivateKey id, r => Buries w s id .privateKey r
  | .deletePortForward id, r => Buries w s id .portForward r
  | _, _ => False

/-- How an edit ends: with the records as they were, or, once it has made its checks, with
one record written. -/
inductive EditEffect (s : VaultStore) (checked : Prop) (writes : EncryptedRecord → Prop) :
    EStateM.Result VaultError VaultStore Reply → Prop
  | failed {e : VaultError} {t : VaultStore} : t.conn.db.records = s.conn.db.records →
      EditEffect s checked writes (.error e t)
  | absent : EditEffect s checked writes (.ok (.deleted false) s)
  | wrote {t : VaultStore} {reply : Reply} {r : EncryptedRecord} : checked → writes r →
      t.conn.db.records = s.conn.db.records.put r →
      EditEffect s checked writes (.ok reply t)

section Effects

variable {p : Primitives} {w : World} {s : VaultStore} {T : Type} [RecordPayload T]
  {checked : Prop} {writes : EncryptedRecord → Prop}

theorem EditEffect.guard {α : Type} {f : VaultStore → VaultResult α} {x : α → VaultM Reply}
    (h : ∀ a, f s = .ok a → EditEffect s checked writes ((x a).run s)) :
    EditEffect s checked writes ((query f >>= x).run s) := by
  rw [EStateM.run_bind, run_query]
  cases hf : f s with
  | ok a => exact h a hf
  | error e => exact .failed rfl

theorem storeValidated_effect (value : T) (kind : RecordKind) (reply : T × Int → Reply)
    (hchecked : checked) (hwrites : ∀ r, SealsValue p w s value kind r → writes r) :
    EditEffect s checked writes
      ((storeValidated p w value kind >>= fun x => pure (reply x)).run s) := by
  unfold storeValidated
  rw [EStateM.run_bind, EStateM.run_bind]
  rcases storeRecord_cases p w (withRecordId w value) kind s with
    ⟨e, he⟩ | ⟨header, d, hc, e, hh, hd, he⟩ | ⟨masterKey, header, d, r, hc, hr, hk, hh, hd, hseal, he⟩
  · rw [he]
    exact .failed rfl
  · rw [he]
    exact .failed rfl
  · rw [withRecordId_idem] at hseal he
    rw [he]
    obtain ⟨hid, hkind, _⟩ := sealRecord_fields hseal
    have hback := recordModifiedAt_wrote
      (s := s.bumped (d.lastLogicalClock + 1) (w.now 0) (w.now 1) hc) hr
    rw [hid, hkind] at hback
    dsimp only
    rw [run_bind_of_ok (run_query_of_ok hback)]
    exact .wrote hchecked (hwrites r ⟨masterKey, header, _, _, hk, hh, hseal⟩) rfl

theorem deleteRecord_effect (id : String) (kind : RecordKind) (hchecked : checked)
    (hwrites : ∀ r, Buries w s id kind r → writes r) :
    EditEffect s checked writes
      ((deleteRecord w id kind >>= fun x => pure (Reply.deleted x)).run s) := by
  rw [EStateM.run_bind]
  rcases deleteRecord_cases w id kind s with
    he | ⟨e, he⟩ | ⟨d, old, hc, hr, hd, hold, hlive, he⟩
  · rw [he]
    exact .absent
  · rw [he]
    exact .failed rfl
  · rw [he]
    exact .wrote hchecked (hwrites _ ⟨old, _, hold, hlive, rfl⟩) rfl

theorem storePrivateKey_effect (key : VaultPrivateKey) (hchecked : checked)
    (hwrites : ∀ r, SealsValue p w s key .privateKey r → writes r) :
    EditEffect s checked writes ((storePrivateKey p w key >>= fun x => pure (Reply.key x)).run s) := by
  simp only [storePrivateKey, bind_assoc, pure_bind]
  apply EditEffect.guard
  intro _ _
  exact storeValidated_effect key .privateKey (fun x => .key (x.1.summary x.2)) hchecked hwrites

/-- Every edit ends in one of these ways, and writes only what it has checked. -/
theorem edit_effect {call : Call} (h : call.isEdit = true) :
    EditEffect s (call.Checked p s) (call.Writes p w s) ((perform p w call).run s) := by
  cases call with
  | createVault _ _ | tryUnlockWithDevice | unlockWithPassphrase _ _ | rotatePassphrase _ _
  | lock | applySnapshot _ | applyDelta _ => cases h
  | storeHostProfile host =>
    simp only [perform, storeHostProfile, bind_assoc, pure_bind]
    apply EditEffect.guard
    intro _ _
    apply EditEffect.guard
    intro _ hrefs
    exact storeValidated_effect host .host (fun x => .host (x.1.summary x.2)) hrefs
      (fun _ hr => hr)
  | storePasswordCredential credential =>
    simp only [perform, storePasswordCredential, bind_assoc, pure_bind]
    apply EditEffect.guard
    intro _ _
    exact storeValidated_effect credential .passwordCredential
      (fun x => .credential (x.1.summary x.2)) trivial (fun _ hr => hr)
  | storePrivateKey key => exact storePrivateKey_effect key trivial (fun _ hr => hr)
  | storePortForward portForward =>
    simp only [perform, storePortForward, bind_assoc, pure_bind]
    apply EditEffect.guard
    intro _ hvalid
    exact storeValidated_effect portForward .portForward
      (fun x => .portForward (x.1.summary x.2)) hvalid (fun _ hr => hr)
  | generatePrivateKey request =>
    simp only [perform, generatePrivateKey, bind_assoc]
    apply EditEffect.guard
    intro key hkey
    exact storePrivateKey_effect key trivial (fun _ hr => ⟨key, hkey, hr⟩)
  | importPrivateKey request =>
    simp only [perform, importPrivateKey, bind_assoc]
    apply EditEffect.guard
    intro key hkey
    exact storePrivateKey_effect key trivial (fun _ hr => ⟨key, hkey, hr⟩)
  | deleteHostProfile id =>
    simp only [perform, deleteHostProfile, bind_assoc]
    apply EditEffect.guard
    intro _ hfree
    exact deleteRecord_effect id .host hfree (fun _ hr => hr)
  | deletePasswordCredential id =>
    simp only [perform, deletePasswordCredential, bind_assoc]
    apply EditEffect.guard
    intro _ hfree
    exact deleteRecord_effect id .passwordCredential hfree (fun _ hr => hr)
  | deletePrivateKey id =>
    simp only [perform, deletePrivateKey, bind_assoc]
    apply EditEffect.guard
    intro _ hfree
    exact deleteRecord_effect id .privateKey hfree (fun _ hr => hr)
  | deletePortForward id => exact deleteRecord_effect id .portForward trivial (fun _ hr => hr)

/-- The state an edit leaves behind. -/
theorem edit_records {e : Event} (h : e.call.isEdit = true) :
    (s.after p e).conn.db.records = s.conn.db.records ∨
    ∃ r, (∃ reply, s.answer p e = .ok reply) ∧ e.call.Checked p s ∧
      e.call.Writes p e.world s r ∧
      (s.after p e).conn.db.records = s.conn.db.records.put r := by
  have heffect := edit_effect (p := p) (w := e.world) (s := s) h
  unfold VaultStore.after VaultStore.answer finalState outcome
  generalize (perform p e.world e.call).run s = result at heffect ⊢
  cases heffect with
  | failed hsame => exact .inl hsame
  | absent => exact .inl rfl
  | wrote hchecked hwrites hrecords => exact .inr ⟨_, ⟨_, rfl⟩, hchecked, hwrites, hrecords⟩

end Effects

end Seance.Vault
