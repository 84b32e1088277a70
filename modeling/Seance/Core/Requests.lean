import Seance.Core.Model
import Seance.Ssh.Tunnel
import Seance.Vault.ReadBack

namespace Seance.Core
open Vault Lib
open Seance.Ssh (SshError ResolvedAuthMethod)

structure SshConnectionConfig where
  label : String
  hostname : String
  port : UInt16
  username : String
  deriving DecidableEq, Repr

structure SshConnectRequest where
  connection : SshConnectionConfig
  auth_order : List ResolvedAuthMethod
  deriving DecidableEq

/-- The request for a port forward, with the connection it goes over. -/
structure ConnectedPortForwardRequest extends Ssh.SshPortForwardRequest where
  connection : SshConnectionConfig
  deriving DecidableEq

/-- What a load answers to `?` and `ok_or_else`. -/
def loaded {T : Type} (missing : String) : VaultResult (Option T) → Except AppError T
  | .error e => .error (.vault e)
  | .ok none => .error (.message missing)
  | .ok (some value) => .ok value

section Requests

variable (p : Primitives) (store : VaultStore)

def resolve_auth : HostAuthRef → Except AppError ResolvedAuthMethod
  | .password credential_id => do
    let credential ←
      loaded "missing password credential" (loadPasswordCredential p store credential_id)
    .ok (.password credential.secret)
  | .privateKey key_id passphrase_credential_id => do
    let key ← loaded "missing private key" (loadPrivateKey p store key_id)
    let passphrase ← match passphrase_credential_id with
      | none => .ok none
      -- a credential that is not there is no passphrase, and no error
      | some id => (loadPasswordCredential p store id).mapError .vault
    .ok (.privateKey key.privateKeyPem (passphrase.map (fun credential => credential.secret)))

def build_connect_request (host : VaultHostProfile) : Except AppError SshConnectRequest := do
  let auth_order ← host.authOrder.mapM (resolve_auth p store)
  .ok
    { connection :=
        { label := host.label
          hostname := host.hostname
          port := .ofNat host.port
          username := host.username }
      auth_order }

/-- What a handle does to connect to a host of an open vault. -/
def saved_host_request (host_id : String) : Except AppError SshConnectRequest := do
  let host ← loaded "saved host not found" (loadHostProfile p store host_id)
  build_connect_request p store host

def port_forward_scope_key (vault_id port_forward_id : String) : String :=
  vault_id ++ "::" ++ port_forward_id

def build_port_forward_request (vault_id : String) (port_forward : VaultPortForwardProfile) :
    Except AppError ConnectedPortForwardRequest := do
  let host ← loaded "saved host not found" (loadHostProfile p store port_forward.hostId)
  let connect_request ← build_connect_request p store host
  .ok
    { id := port_forward_scope_key vault_id port_forward.id
      vault_id
      forward_id := port_forward.id
      host_id := host.id
      label := port_forward.label
      host_label := host.label
      mode := match port_forward.mode with
        | .local => .local
        | .remote => .remote
      listen_address := port_forward.listenAddress
      listen_port := .ofNat port_forward.listenPort
      target_address := port_forward.targetAddress
      target_port := .ofNat port_forward.targetPort
      auth_order := connect_request.auth_order
      connection := connect_request.connection }

/-- What a handle does to start a port forward of an open vault. -/
def saved_port_forward_request (vault_id port_forward_id : String) :
    Except AppError ConnectedPortForwardRequest := do
  let port_forward ←
    loaded "saved port forward not found" (loadPortForward p store port_forward_id)
  build_port_forward_request p store vault_id port_forward

end Requests

/-- The keys of `russh`, as far as `authenticate` looks at them. -/
structure RusshKeys (K : Type) where
  from_openssh : String → Except String K
  is_encrypted : K → Bool
  decrypt : K → String → Except String K
  is_rsa : K → Bool

/-- What a client offers to be let in by. -/
inductive Offer (K H : Type)
  | password (password : String)
  | publickey (key : K) (hash_alg : Option H)
  deriving DecidableEq

/-- A connected server; what it answers may depend on all that it has been offered before. -/
structure Server (K H : Type) where
  best_supported_rsa_hash : List (Offer K H) → Except String (Option (Option H))
  answer : String → List (Offer K H) → Offer K H → Except String Bool

section Authenticate

variable {K H : Type} (keys : RusshKeys K) (server : Server K H)

def private_key (private_key_pem : String) (passphrase : Option String) : Except SshError K := do
  let key ← (keys.from_openssh private_key_pem).mapError .invalidPrivateKey
  if keys.is_encrypted key then
    match passphrase with
    | none => .error (.invalidPrivateKey "encrypted private key is missing a passphrase")
    | some passphrase => (keys.decrypt key passphrase).mapError .invalidPrivateKey
  else .ok key

def offer (before : List (Offer K H)) : ResolvedAuthMethod → Except SshError (Offer K H)
  | .password password => .ok (.password password)
  | .privateKey private_key_pem passphrase => do
    let key ← private_key keys private_key_pem passphrase
    let hash_alg ←
      if keys.is_rsa key then
        ((server.best_supported_rsa_hash before).mapError .transport).map Option.join
      else .ok none
    .ok (.publickey key hash_alg)

/-- With what the server has been offered and has answered so far, in order. -/
def authenticate (username : String) (log : List (Offer K H × Bool)) :
    List ResolvedAuthMethod → Except SshError Unit × List (Offer K H × Bool)
  | [] => (.error .authenticationRejected, log)
  | auth :: rest =>
    match offer keys server (log.map Prod.fst) auth with
    | .error e => (.error e, log)
    | .ok offered =>
      match server.answer username (log.map Prod.fst) offered with
      | .error e => (.error (.transport e), log)
      | .ok true => (.ok (), log ++ [(offered, true)])
      | .ok false => authenticate username (log ++ [(offered, false)]) rest

end Authenticate

def saved_secret (m : Holdings) (id : String) : Option String :=
  (m.find .passwordCredential id).map VaultPasswordCredential.secret

def saved_pem (m : Holdings) (id : String) : Option String :=
  (m.find .privateKey id).map VaultPrivateKey.privateKeyPem

/-- The secrets that the holdings have for an authentication method. -/
def saved_auth (m : Holdings) : HostAuthRef → Option ResolvedAuthMethod
  | .password credential_id => (saved_secret m credential_id).map .password
  | .privateKey key_id none => (saved_pem m key_id).map fun pem => .privateKey pem none
  | .privateKey key_id (some id) => do
    let pem ← saved_pem m key_id
    let secret ← saved_secret m id
    some (.privateKey pem (some secret))

section Resolved

variable {p : Primitives} {s : VaultStore} {m : Holdings}

/-- A live record is found, with its value. -/
theorem find_of_hasLive {T : Type} [RecordPayload T] {id : String} {kind : RecordKind}
    {found : Option T} (hload : loadRecordPayload p T s id kind = .ok found)
    (hlive : s.HasLive id kind) : ∃ value, found = some value := by
  obtain ⟨r, hr, rfl, hkind, hr_live⟩ := hlive
  cases found with
  | none => exact absurd hload (loadRecordPayload_live hr hr_live hkind)
  | some value => exact ⟨value, rfl⟩

theorem credential_found (hreads : s.ReadsBack p m) {id : String}
    (hlive : s.HasLive id .passwordCredential) :
    ∃ credential, saved_secret m id = some credential.secret ∧
      loadPasswordCredential p s id = .ok (some credential) := by
  have hload := hreads.loadCredential id
  obtain ⟨credential, hfound⟩ := find_of_hasLive hload hlive
  refine ⟨credential, ?_, hload.trans (congrArg Except.ok hfound)⟩
  unfold saved_secret
  rw [hfound]
  rfl

theorem key_found (hreads : s.ReadsBack p m) {id : String} (hlive : s.HasLive id .privateKey) :
    ∃ key, saved_pem m id = some key.privateKeyPem ∧ loadPrivateKey p s id = .ok (some key) := by
  have hload := hreads.loadKey id
  obtain ⟨key, hfound⟩ := find_of_hasLive hload hlive
  refine ⟨key, ?_, hload.trans (congrArg Except.ok hfound)⟩
  unfold saved_pem
  rw [hfound]
  rfl

theorem resolve_auth_saved (hreads : s.ReadsBack p m) {auth : HostAuthRef} (h : auth.Resolves s) :
    ∃ method, saved_auth m auth = some method ∧ resolve_auth p s auth = .ok method := by
  cases auth with
  | password credential_id =>
    obtain ⟨credential, hsaved, hload⟩ := credential_found hreads h
    refine ⟨.password credential.secret, congrArg (Option.map _) hsaved, ?_⟩
    simp only [resolve_auth, hload]
    rfl
  | privateKey key_id passphrase_credential_id =>
    obtain ⟨key, hpem, hload⟩ := key_found hreads h.1
    cases passphrase_credential_id with
    | none =>
      refine ⟨.privateKey key.privateKeyPem none, congrArg (Option.map _) hpem, ?_⟩
      simp only [resolve_auth, hload]
      rfl
    | some id =>
      obtain ⟨credential, hsecret, hopen⟩ := credential_found hreads (h.2 id rfl)
      refine ⟨.privateKey key.privateKeyPem (some credential.secret), ?_, ?_⟩
      · simp only [saved_auth, hpem, hsecret]
        rfl
      · simp only [resolve_auth, hload, hopen]
        rfl

/-- What every authentication method of a list is resolved to, in its order. -/
theorem resolve_all_saved (hreads : s.ReadsBack p m) {auth_order : List HostAuthRef}
    (h : ∀ auth ∈ auth_order, auth.Resolves s) :
    ∃ methods, auth_order.mapM (saved_auth m) = some methods ∧
      auth_order.mapM (resolve_auth p s) = .ok methods := by
  induction auth_order with
  | nil => exact ⟨[], rfl, rfl⟩
  | cons auth rest ih =>
    obtain ⟨hauth, hrest⟩ := List.forall_mem_cons.mp h
    obtain ⟨method, hsaved, hresolved⟩ := resolve_auth_saved hreads hauth
    obtain ⟨methods, hsaved_rest, hresolved_rest⟩ := ih hrest
    refine ⟨method :: methods, ?_, ?_⟩
    · rw [List.mapM_cons, hsaved, hsaved_rest]
      rfl
    · rw [List.mapM_cons, hresolved, hresolved_rest]
      rfl

/-- A saved host is the one that its live row opens to, and what it names is there. -/
theorem saved_host_resolves {k : VaultKeys} (hs : s.HoldsKeys p k)
    (hintact : s.ReferencesIntact p k) (hreads : s.ReadsBack p m) {id : String}
    {host : VaultHostProfile} (hfind : m.find .host id = some host) :
    ∃ methods, host.authOrder.mapM (saved_auth m) = some methods ∧
      saved_host_request p s id = .ok
        ⟨⟨host.label, host.hostname, .ofNat host.port, host.username⟩, methods⟩ := by
  have hload : loadHostProfile p s id = .ok (some host) :=
    (hreads.loadHost id).trans (congrArg Except.ok hfind)
  obtain ⟨r, hr, _, hkind, hlive, hopen⟩ := loadRecordPayload_some hload
  obtain ⟨found, hfound, _, hresolves⟩ := hintact.hosts r hr hlive hkind
  cases (decryptRecord_keyed hs hopen).symm.trans hfound
  obtain ⟨methods, hsaved, hresolved⟩ := resolve_all_saved hreads hresolves
  refine ⟨methods, hsaved, ?_⟩
  unfold saved_host_request build_connect_request
  rw [hload]
  simp only [loaded, bind, Except.bind, hresolved]

/-- The host of a saved port forward is saved too. -/
theorem saved_forward_host {k : VaultKeys} (hs : s.HoldsKeys p k)
    (hintact : s.ReferencesIntact p k) (hreads : s.ReadsBack p m) {id : String}
    {forward : VaultPortForwardProfile} (hfind : m.find .portForward id = some forward) :
    loadPortForward p s id = .ok (some forward) ∧
      ∃ host, m.find .host forward.hostId = some host := by
  have hload : loadPortForward p s id = .ok (some forward) :=
    (hreads.loadForward id).trans (congrArg Except.ok hfind)
  obtain ⟨r, hr, _, hkind, hlive, hopen⟩ := loadRecordPayload_some hload
  obtain ⟨found, hfound, _, hhost⟩ := hintact.forwards r hr hlive hkind
  cases (decryptRecord_keyed hs hopen).symm.trans hfound
  exact ⟨hload, find_of_hasLive (hreads.loadHost forward.hostId) hhost⟩

/-- A saved port forward goes over a connection to its host. -/
theorem saved_forward_resolves {k : VaultKeys} (hs : s.HoldsKeys p k)
    (hintact : s.ReferencesIntact p k) (hreads : s.ReadsBack p m) {id : String}
    {forward : VaultPortForwardProfile} (hfind : m.find .portForward id = some forward)
    (vault_id : String) :
    ∃ request connect, saved_port_forward_request p s vault_id id = .ok request ∧
      saved_host_request p s forward.hostId = .ok connect ∧
      request.connection = connect.connection ∧ request.auth_order = connect.auth_order ∧
      request.id = port_forward_scope_key vault_id forward.id := by
  obtain ⟨hload, host, hhost⟩ := saved_forward_host hs hintact hreads hfind
  have hload_host : loadHostProfile p s forward.hostId = .ok (some host) :=
    (hreads.loadHost forward.hostId).trans (congrArg Except.ok hhost)
  obtain ⟨methods, _, hover⟩ := saved_host_resolves hs hintact hreads hhost
  have hbuild : build_connect_request p s host = .ok
      ⟨⟨host.label, host.hostname, .ofNat host.port, host.username⟩, methods⟩ := by
    unfold saved_host_request at hover
    rw [hload_host] at hover
    exact hover
  unfold saved_port_forward_request build_port_forward_request
  rw [hload]
  simp only [loaded, bind, Except.bind, hload_host, hbuild]
  exact ⟨_, _, rfl, hover, rfl, rfl, rfl⟩

end Resolved

section Attempts

variable {K H : Type} {keys : RusshKeys K} {server : Server K H} {username : String}
  {auth : ResolvedAuthMethod} {rest : List ResolvedAuthMethod} {result : Except SshError Unit}
  {given : List (Offer K H × Bool)}

/-- The offer is the secret of the method. -/
def Offers (keys : RusshKeys K) : ResolvedAuthMethod → Offer K H × Bool → Prop
  | .password password, (.password offered, _) => offered = password
  | .privateKey private_key_pem passphrase, (.publickey key _, _) =>
    private_key keys private_key_pem passphrase = .ok key
  | _, _ => False

/-- What a server has been offered: the secrets of the first methods in their order, up to the one
that it accepts. -/
structure Attempts (keys : RusshKeys K) (methods : List ResolvedAuthMethod)
    (result : Except SshError Unit) (given : List (Offer K H × Bool)) : Prop where
  offered : ∃ tried, tried <+: methods ∧ List.Forall₂ (Offers keys) tried given
  rejected : ∀ x ∈ given.dropLast, x.2 = false
  accepted : result = .ok () ↔ ∃ x ∈ given, x.2 = true
  exhausted : result = .error .authenticationRejected ↔
    given.length = methods.length ∧ ∀ x ∈ given, x.2 = false

theorem attempts_none : Attempts (H := H) keys [] (.error .authenticationRejected) [] :=
  ⟨⟨[], List.prefix_rfl, .nil⟩, nofun, ⟨nofun, nofun⟩, ⟨fun _ => ⟨rfl, nofun⟩, fun _ => rfl⟩⟩

/-- A method that cannot be offered ends it all. -/
theorem attempts_stopped {e : SshError} (he : e ≠ .authenticationRejected) :
    Attempts (H := H) keys (auth :: rest) (.error e) [] := by
  refine ⟨⟨[], List.nil_prefix, .nil⟩, nofun, ⟨nofun, nofun⟩, ⟨?_, ?_⟩⟩
  · rintro ⟨⟩
    exact absurd rfl he
  · rintro ⟨hlength, _⟩
    cases hlength

theorem attempts_accepted {offered : Offer K H} (hoffer : Offers keys auth (offered, true)) :
    Attempts keys (auth :: rest) (.ok ()) [(offered, true)] := by
  refine ⟨⟨[auth], ?_, .cons hoffer .nil⟩, nofun, ⟨?_, fun _ => rfl⟩, ⟨nofun, ?_⟩⟩
  · exact List.cons_prefix_cons.mpr ⟨rfl, List.nil_prefix⟩
  · exact fun _ => ⟨_, List.mem_cons_self, rfl⟩
  · rintro ⟨_, hall⟩
    cases hall _ List.mem_cons_self

theorem Attempts.cons {offered : Offer K H} (hoffer : Offers keys auth (offered, false))
    (h : Attempts keys rest result given) :
    Attempts keys (auth :: rest) result ((offered, false) :: given) := by
  obtain ⟨tried, hprefix, hgiven⟩ := h.offered
  refine ⟨⟨auth :: tried, List.cons_prefix_cons.mpr ⟨rfl, hprefix⟩, .cons hoffer hgiven⟩, ?_, ?_, ?_⟩
  · cases given with
    | nil => nofun
    | cons x given =>
      rw [List.dropLast_cons_cons]
      exact List.forall_mem_cons.mpr ⟨rfl, h.rejected⟩
  · rw [h.accepted]
    simp
  · rw [h.exhausted, List.forall_mem_cons]
    simp

theorem private_key_error {private_key_pem : String} {passphrase : Option String} {e : SshError}
    (h : private_key keys private_key_pem passphrase = .error e) :
    ∃ text, e = .invalidPrivateKey text := by
  unfold private_key at h
  cases hread : keys.from_openssh private_key_pem with
  | error text =>
    rw [hread] at h
    cases h
    exact ⟨text, rfl⟩
  | ok key =>
    rw [hread] at h
    change (if keys.is_encrypted key = true then _ else _) = _ at h
    split at h
    · cases passphrase with
      | none =>
        cases h
        exact ⟨_, rfl⟩
      | some passphrase =>
        cases hopen : keys.decrypt key passphrase with
        | error text =>
          simp only [hopen] at h
          cases h
          exact ⟨text, rfl⟩
        | ok key =>
          simp only [hopen] at h
          cases h
    · cases h

/-- A key is offered once it has been read, and the server asked for a hash where it is RSA. -/
theorem offer_key {before : List (Offer K H)} {private_key_pem : String}
    {passphrase : Option String} {outcome : Except SshError (Offer K H)}
    (h : offer keys server before (.privateKey private_key_pem passphrase) = outcome) :
    (∃ e, e ≠ .authenticationRejected ∧ outcome = .error e) ∨
    ∃ key hash_alg, private_key keys private_key_pem passphrase = .ok key ∧
      outcome = .ok (.publickey key hash_alg) := by
  subst h
  simp only [offer]
  cases hread : private_key keys private_key_pem passphrase with
  | error e =>
    obtain ⟨text, rfl⟩ := private_key_error hread
    exact .inl ⟨_, by simp, rfl⟩
  | ok key =>
    by_cases hrsa : keys.is_rsa key = true
    · cases hhash : server.best_supported_rsa_hash before with
      | error text =>
        refine .inl ⟨.transport text, by simp, ?_⟩
        simp only [Except.bind, bind, hrsa, if_true]
        rfl
      | ok hash_alg =>
        refine .inr ⟨key, hash_alg.join, rfl, ?_⟩
        simp only [Except.bind, bind, hrsa, if_true]
        rfl
    · refine .inr ⟨key, none, rfl, ?_⟩
      simp only [Except.bind, bind, hrsa]
      rfl

theorem offer_error {before : List (Offer K H)} {e : SshError}
    (h : offer keys server before auth = .error e) : e ≠ .authenticationRejected := by
  cases auth with
  | password _ => cases h
  | privateKey _ _ =>
    rcases offer_key h with ⟨e', hne, he⟩ | ⟨_, _, _, hok⟩
    · cases he
      exact hne
    · cases hok

theorem offer_offers {before : List (Offer K H)} {offered : Offer K H} {accepted : Bool}
    (h : offer keys server before auth = .ok offered) : Offers keys auth (offered, accepted) := by
  cases auth with
  | password _ =>
    cases h
    rfl
  | privateKey _ _ =>
    rcases offer_key h with ⟨_, _, he⟩ | ⟨key, hash_alg, hread, hok⟩
    · cases he
    · cases hok
      exact hread

variable (keys server username) in
theorem authenticate_attempts (log : List (Offer K H × Bool)) (methods : List ResolvedAuthMethod) :
    ∃ given, (authenticate keys server username log methods).2 = log ++ given ∧
      Attempts keys methods (authenticate keys server username log methods).1 given := by
  induction methods generalizing log with
  | nil => exact ⟨[], (List.append_nil log).symm, attempts_none⟩
  | cons auth rest ih =>
    unfold authenticate
    cases hoffer : offer keys server (log.map Prod.fst) auth with
    | error e => exact ⟨[], (List.append_nil log).symm, attempts_stopped (offer_error hoffer)⟩
    | ok offered =>
      dsimp only
      split
      · exact ⟨[], (List.append_nil log).symm, attempts_stopped (by simp)⟩
      · exact ⟨[(offered, true)], rfl, attempts_accepted (offer_offers hoffer)⟩
      · obtain ⟨given, hlog, hattempts⟩ := ih (log ++ [(offered, false)])
        refine ⟨(offered, false) :: given, ?_, hattempts.cons (offer_offers hoffer)⟩
        rw [hlog, List.append_assoc, List.singleton_append]

end Attempts

/-- In an open vault, after any run of local calls that stores nothing under the id of a record of
another kind, every saved host and port forward can be connected to: the request for a host has the
secrets that were saved last, in the order of the host, a forward goes over the connection of its
host, and no server is offered anything else or in another order, nor anything more once it has
accepted one. -/
theorem saved_hosts_connect (p : Primitives) (ideal : IdealAead p)
    (hostJson : p.hostJson.Lossless) (credentialJson : p.credentialJson.Lossless)
    (privateKeyJson : p.privateKeyJson.Lossless) (portForwardJson : p.portForwardJson.Lossless)
    (path : String) (deviceStore : Table DeviceSecret.account) {events : List Event}
    (h : VaultStore.AllEvents p (fun s e => e.call.exchanges = false ∧ KindsApart s e)
      (.fresh path deviceStore) events)
    (hopen : ((VaultStore.fresh path deviceStore).afterAll p events).masterKey.isSome) :
    let s := (VaultStore.fresh path deviceStore).afterAll p events
    let m := Holdings.toldAll p (.fresh path deviceStore) .empty events
    (∀ id host, m.find .host id = some host → ∃ methods,
      host.authOrder.mapM (saved_auth m) = some methods ∧
      saved_host_request p s id = .ok
        ⟨⟨host.label, host.hostname, .ofNat host.port, host.username⟩, methods⟩ ∧
      ∀ {K H : Type} (keys : RusshKeys K) (server : Server K H),
        let (result, given) := authenticate keys server host.username [] methods
        Attempts keys methods result given) ∧
    ∀ vault_id id forward, m.find .portForward id = some forward →
      ∃ request connect, saved_port_forward_request p s vault_id id = .ok request ∧
        saved_host_request p s forward.hostId = .ok connect ∧
        request.connection = connect.connection ∧ request.auth_order = connect.auth_order ∧
        request.id = port_forward_scope_key vault_id forward.id := by
  intro s m
  obtain ⟨keys, hkeyed, hrecords⟩ := (referring_rule ideal hostJson portForwardJson).run ideal
    path deviceStore h
  obtain ⟨keys', hkeyed', hrows⟩ := holds_run ideal
    (payloads_lossless hostJson credentialJson privateKeyJson portForwardJson)
    (fresh_holds path deviceStore)
    (VaultStore.AllEvents.forall (fun _ _ hok => hok.1) h)
  have hset : ∀ t : VaultStore, t.Unset → t.masterKey.isSome = false := by
    intro t ht
    rw [ht.masterKey]
    rfl
  cases keys with
  | none => exact absurd ((hset _ hkeyed).symm.trans hopen) Bool.false_ne_true
  | some k =>
    cases keys' with
    | none => exact absurd ((hset _ hkeyed').symm.trans hopen) Bool.false_ne_true
    | some k' =>
      have hreads : s.ReadsBack p m := reads_back hkeyed' hopen hrows
      have hintact : s.ReferencesIntact p k := Referring.referencesIntact hrecords
      refine ⟨?_, fun vault_id id forward hfind =>
        saved_forward_resolves hkeyed hintact hreads hfind vault_id⟩
      intro id host hfind
      obtain ⟨methods, hsaved, hrequest⟩ := saved_host_resolves hkeyed hintact hreads hfind
      refine ⟨methods, hsaved, hrequest, ?_⟩
      intro K H keys server
      obtain ⟨given, hgiven, hattempts⟩ :=
        authenticate_attempts keys server host.username [] methods
      rw [List.nil_append] at hgiven
      dsimp only
      rw [hgiven]
      exact hattempts

end Seance.Core
