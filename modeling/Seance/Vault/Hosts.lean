import Seance.Vault.Contents
import Seance.Vault.Locked

namespace Seance.Vault
open Lib

variable (p : Primitives) (s t : VaultStore)

def hostRows : List EncryptedRecord := Storage.listRecordsByKind s.conn.db .host

/-- What the listing has of a row, if it opens. -/
def hostSummary (r : EncryptedRecord) : Option HostAuthSummary :=
  (decryptRecord p VaultHostProfile s r).toOption.map VaultHostProfile.authSummary

/-- The hosts that open, in the order of the listing. -/
def openHosts : List HostAuthSummary := (hostRows s).filterMap (hostSummary p s)

def HostsOpen : Prop := ∀ r ∈ hostRows s, (hostSummary p s r).isSome

/-- Among the hosts, those and only those stored under the id carry it. -/
def OwnId (id : String) : Prop :=
  ∀ r ∈ hostRows s, ∀ host, hostSummary p s r = some host → (host.hostId = id ↔ r.recordId = id)

/-- The last host in a listing that carries the id. -/
def lastHost (hosts : List HostAuthSummary) (id : String) : Option HostAuthSummary :=
  hosts.reverse.find? (fun host => host.hostId = id)

variable {p s t} {w : World} {id other : String} {r : EncryptedRecord}

section Listing

theorem toOption_eq_some {α : Type} {x : VaultResult α} {a : α} :
    x.toOption = some a ↔ x = .ok a := by
  cases x with
  | ok b => simp [Except.toOption]
  | error e => simp [Except.toOption]

/-- A mapping that answers is one that never fails. -/
theorem mapM_ok_iff {α β : Type} {f : α → VaultResult β} {xs : List α} {ys : List β} :
    xs.mapM f = .ok ys ↔
      (∀ x ∈ xs, (f x).toOption.isSome) ∧ ys = xs.filterMap (fun x => (f x).toOption) := by
  induction xs generalizing ys with
  | nil =>
    constructor
    · intro h
      cases h
      exact ⟨nofun, rfl⟩
    · rintro ⟨_, rfl⟩
      rfl
  | cons x xs ih =>
    rw [List.mapM_cons, except_bind_ok, List.forall_mem_cons, List.filterMap_cons]
    constructor
    · rintro ⟨y, hy, h⟩
      obtain ⟨rest, hrest, h⟩ := except_bind_ok.mp h
      cases h
      obtain ⟨hall, rfl⟩ := ih.mp hrest
      rw [hy]
      exact ⟨⟨rfl, hall⟩, rfl⟩
    · rintro ⟨⟨hsome, hall⟩, rfl⟩
      obtain ⟨y, hy⟩ := Option.isSome_iff_exists.mp hsome
      refine ⟨y, toOption_eq_some.mp hy, except_bind_ok.mpr ⟨_, ih.mpr ⟨hall, rfl⟩, ?_⟩⟩
      rw [hy]
      rfl

theorem hostSummary_eq (r : EncryptedRecord) :
    hostSummary p s r =
      (do let host ← decryptRecord p VaultHostProfile s r
          return host.authSummary : VaultResult HostAuthSummary).toOption := by
  unfold hostSummary
  cases decryptRecord p VaultHostProfile s r <;> rfl

/-- The listing answers exactly if every host opens. -/
theorem listHostAuthSummaries_iff {hosts : List HostAuthSummary} :
    listHostAuthSummaries p s = .ok hosts ↔ HostsOpen p s ∧ hosts = openHosts p s := by
  unfold listHostAuthSummaries listSummaries HostsOpen openHosts
  rw [mapM_ok_iff]
  simp only [hostSummary_eq]
  rfl

theorem openHosts_locked (h : s.masterKey = none) : openHosts p s = [] := by
  refine List.filterMap_eq_nil_iff.mpr (fun r _ => ?_)
  unfold hostSummary
  rw [decryptRecord_locked h]
  rfl

theorem SameRecords.hostSummary (h : SameRecords s t) (r : EncryptedRecord) :
    hostSummary p t r = Vault.hostSummary p s r := by
  unfold Vault.hostSummary
  rw [decryptRecord_congr h.masterKey h.vaultId]

theorem SameRecords.hostRows (h : SameRecords s t) : hostRows t = Vault.hostRows s := by
  unfold Vault.hostRows Storage.listRecordsByKind
  rw [h.records]

theorem SameRecords.openHosts (h : SameRecords s t) : openHosts p t = Vault.openHosts p s := by
  unfold Vault.openHosts
  rw [h.hostRows, funext h.hostSummary]

theorem SameRecords.hostsOpen (h : SameRecords s t) (hopen : HostsOpen p s) : HostsOpen p t := by
  intro r hr
  rw [h.hostSummary]
  exact hopen r (h.hostRows ▸ hr)

theorem lastHost_cons (host : HostAuthSummary) (hosts : List HostAuthSummary) (id : String) :
    lastHost (host :: hosts) id =
      (lastHost hosts id).or (if host.hostId = id then some host else none) := by
  unfold lastHost
  rw [List.reverse_cons, List.find?_append, List.find?_singleton]
  simp

theorem lastHost_of_forall {hosts : List HostAuthSummary} {host : HostAuthSummary}
    (hall : ∀ x ∈ hosts, x.hostId = id → x = host) (hmem : host ∈ hosts) (hid : host.hostId = id) :
    lastHost hosts id = some host := by
  unfold lastHost
  cases hfind : hosts.reverse.find? (fun host => host.hostId = id) with
  | none =>
    exact absurd (decide_eq_true hid) (List.find?_eq_none.mp hfind host (List.mem_reverse.mpr hmem))
  | some found =>
    have hfound : found.hostId = id := by simpa using List.find?_some hfind
    rw [hall found (List.mem_reverse.mp (List.mem_of_find?_eq_some hfind)) hfound]

theorem lastHost_eq_none {hosts : List HostAuthSummary} (hall : ∀ x ∈ hosts, x.hostId ≠ id) :
    lastHost hosts id = none :=
  List.find?_eq_none.mpr
    (fun host hhost => by simpa using hall host (List.mem_reverse.mp hhost))

/-- Hosts with another id do not matter. -/
theorem lastHost_filter (hosts : List HostAuthSummary) (h : other ≠ id) :
    lastHost (hosts.filter (fun host => host.hostId ≠ id)) other = lastHost hosts other := by
  unfold lastHost
  rw [← List.filter_reverse, List.find?_filter]
  congr 1
  funext host
  by_cases hother : host.hostId = other
  · simp [hother, h]
  · simp [hother]

end Listing

section Edits

theorem Rewrites.hostSummary (h : Rewrites s t r) (q : EncryptedRecord) :
    hostSummary p t q = Vault.hostSummary p s q := by
  unfold Vault.hostSummary
  rw [decryptRecord_congr h.masterKey h.vaultId]

theorem Rewrites.others (h : Rewrites s t r) :
    (hostRows t).filter (fun q => q.recordId ≠ r.recordId) =
      (hostRows s).filter (fun q => q.recordId ≠ r.recordId) := by
  unfold hostRows Storage.listRecordsByKind
  have hrule : Std.TransCmp (fun a b : EncryptedRecord => compare b.modifiedAt a.modifiedAt) :=
    inferInstanceAs (Std.TransCmp (fun a b => compareOn EncryptedRecord.modifiedAt b a))
  rw [filter_orderBy, filter_orderBy, List.filter_comm, h.records, Table.filter_put,
    List.filter_comm]

theorem Rewrites.mem_hostRows (h : Rewrites s t r) {q : EncryptedRecord} :
    q ∈ hostRows t ↔ q = r ∧ r.kind = .host ∧ r.deletedAt = none ∨
      q ∈ hostRows s ∧ q.recordId ≠ r.recordId := by
  unfold hostRows
  rw [mem_listRecordsByKind, mem_listRecordsByKind, h.records, Table.mem_put]
  constructor
  · rintro ⟨rfl | ⟨hq, hne⟩, hkind, hlive⟩
    · exact .inl ⟨rfl, hkind, hlive⟩
    · exact .inr ⟨⟨hq, hkind, hlive⟩, hne⟩
  · rintro (⟨rfl, hkind, hlive⟩ | ⟨⟨hq, hkind, hlive⟩, hne⟩)
    · exact ⟨.inl rfl, hkind, hlive⟩
    · exact ⟨.inr ⟨hq, hne⟩, hkind, hlive⟩

/-- Without the hosts of an id that only its own row carries, the listing is one of the other
rows. -/
theorem OwnId.filter (h : OwnId p s id) :
    (openHosts p s).filter (fun host => host.hostId ≠ id) =
      ((hostRows s).filter (fun q => q.recordId ≠ id)).filterMap (hostSummary p s) := by
  unfold OwnId at h
  unfold openHosts
  generalize hostRows s = rows at h ⊢
  induction rows with
  | nil => rfl
  | cons q rows ih =>
    obtain ⟨hq, hrows⟩ := List.forall_mem_cons.mp h
    have ih := ih hrows
    cases hsummary : hostSummary p s q with
    | none =>
      rw [List.filterMap_cons_none hsummary, ih, List.filter_cons]
      split
      · rw [List.filterMap_cons_none hsummary]
      · rfl
    | some host =>
      have hid := hq host hsummary
      rw [List.filterMap_cons_some hsummary, List.filter_cons, List.filter_cons, ih]
      by_cases hown : q.recordId = id
      · simp [hown, hid.mpr hown]
      · simp [hown, hid.not.mpr hown, hsummary]

/-- The other hosts of a vault in which one row has been written. -/
theorem Rewrites.lastHost (h : Rewrites s t r) (hown : OwnId p s r.recordId)
    (hown' : OwnId p t r.recordId) (hne : other ≠ r.recordId) :
    lastHost (openHosts p t) other = Vault.lastHost (openHosts p s) other := by
  rw [← lastHost_filter _ hne, ← lastHost_filter (openHosts p s) hne, hown.filter, hown'.filter,
    h.others, funext h.hostSummary]

/-- A row under an id of its own that is a live host is the host with that id. -/
theorem Rewrites.wrote_host (h : Rewrites s t r) (hopen : HostsOpen p s)
    (hown : OwnId p s r.recordId) (hkind : r.kind = .host) (hlive : r.deletedAt = none)
    {host : HostAuthSummary} (hsummary : Vault.hostSummary p t r = some host)
    (hid : host.hostId = r.recordId) :
    HostsOpen p t ∧ ∀ id, Vault.lastHost (openHosts p t) id =
      if id = r.recordId then some host else Vault.lastHost (openHosts p s) id := by
  have hown' : OwnId p t r.recordId := by
    intro q hq found hfound
    rcases h.mem_hostRows.mp hq with ⟨rfl, _⟩ | ⟨hq, hne⟩
    · cases hsummary.symm.trans hfound
      exact iff_of_true hid rfl
    · rw [h.hostSummary] at hfound
      exact hown q hq found hfound
  refine ⟨fun q hq => ?_, fun id => ?_⟩
  · rcases h.mem_hostRows.mp hq with ⟨rfl, _⟩ | ⟨hq, _⟩
    · rw [hsummary]
      rfl
    · rw [h.hostSummary]
      exact hopen q hq
  · split
    · rename_i hr
      subst hr
      refine lastHost_of_forall ?_ ?_ hid
      · intro found hmem hfound
        obtain ⟨q, hq, hfrom⟩ := List.mem_filterMap.mp hmem
        rcases h.mem_hostRows.mp hq with ⟨rfl, _⟩ | ⟨_, hne⟩
        · exact Option.some.inj (hfrom.symm.trans hsummary)
        · exact absurd ((hown' q hq found hfrom).mp hfound) hne
      · exact List.mem_filterMap.mpr ⟨r, h.mem_hostRows.mpr (.inl ⟨rfl, hkind, hlive⟩), hsummary⟩
    · rename_i hne
      exact h.lastHost hown hown' hne

/-- A row that is no live host takes the host of its id away. -/
theorem Rewrites.wrote_tombstone (h : Rewrites s t r) (hopen : HostsOpen p s)
    (hown : OwnId p s r.recordId) (hdead : r.deletedAt ≠ none) :
    HostsOpen p t ∧ ∀ id, Vault.lastHost (openHosts p t) id =
      if id = r.recordId then none else Vault.lastHost (openHosts p s) id := by
  have hrows : ∀ q ∈ hostRows t, q ∈ hostRows s ∧ q.recordId ≠ r.recordId := by
    intro q hq
    rcases h.mem_hostRows.mp hq with ⟨_, _, hlive⟩ | hq
    · exact absurd hlive hdead
    · exact hq
  have hown' : OwnId p t r.recordId := by
    intro q hq found hfound
    rw [h.hostSummary] at hfound
    exact hown q (hrows q hq).1 found hfound
  refine ⟨fun q hq => ?_, fun id => ?_⟩
  · rw [h.hostSummary]
    exact hopen q (hrows q hq).1
  · split
    · rename_i hr
      subst hr
      refine lastHost_eq_none (fun found hmem hfound => ?_)
      obtain ⟨q, hq, hfrom⟩ := List.mem_filterMap.mp hmem
      exact (hrows q hq).2 ((hown' q hq found hfrom).mp hfound)
    · rename_i hne
      exact h.lastHost hown hown' hne

theorem storeHostProfile_hosts (ideal : IdealAead p) (hjson : p.hostJson.Lossless)
    {host : VaultHostProfile} {summary : HostSummary} (hopen : HostsOpen p s)
    (hown : OwnId p s (targetId w host.id))
    (h : (storeHostProfile p w host).run s = .ok summary t) :
    HostsOpen p t ∧ ∀ id, lastHost (openHosts p t) id =
      if id = targetId w host.id then some (withRecordId w host).authSummary
      else lastHost (openHosts p s) id := by
  obtain ⟨_, r, masterKey, header, clock, previous, hseal, hrewrites, hk, hh⟩ :=
    storeHostProfile_rewrites h
  obtain ⟨hid, hkind, _, _, hlive, _⟩ := sealRecord_fields hseal
  have htarget : r.recordId = targetId w host.id :=
    hid.trans (recordId_withRecordId w host)
  have hsummary : hostSummary p t r = some (withRecordId w host).authSummary := by
    rw [hrewrites.hostSummary]
    unfold hostSummary
    rw [decryptRecord_unlocked hk hh, openRecord_sealed ideal hjson hseal]
    rfl
  rw [← htarget] at hown ⊢
  exact hrewrites.wrote_host hopen hown hkind hlive hsummary hid.symm

theorem deleteHostProfile_rewrites (h : (deleteHostProfile p w id).run s = .ok true t) :
    ∃ r, r.recordId = id ∧ r.deletedAt ≠ none ∧ Rewrites s t r := by
  obtain ⟨_, _, hcheck, h⟩ := run_bind_ok.mp h
  obtain rfl := state_of_query hcheck
  rcases deleteRecord_cases w id .host s with he | ⟨e, he⟩ | ⟨d, old, hc, hr, hd, hold, _, he⟩
  · cases h.symm.trans he
  · cases h.symm.trans he
  · cases h.symm.trans he
    have hid : old.recordId = id := Table.find?_key (Storage.loadRecord_eq_some.mp hold).1
    exact ⟨tombstone old (d.lastLogicalClock + 1) (w.now 1), hid, nofun, rfl,
      (SameContents.bumped s _ (w.now 0) (w.now 1) hc).vaultId, rfl⟩

/-- A host that has been deleted is gone from the listing; a locked vault lists none anyway. -/
theorem deleteHostProfile_hosts (hopen : s.masterKey.isSome → HostsOpen p s) (hown : OwnId p s id)
    (h : (deleteHostProfile p w id).run s = .ok true t) :
    (t.masterKey.isSome → HostsOpen p t) ∧ ∀ other, lastHost (openHosts p t) other =
      if other = id then none else lastHost (openHosts p s) other := by
  obtain ⟨r, rfl, hdead, hrewrites⟩ := deleteHostProfile_rewrites h
  by_cases hkey : s.masterKey.isSome
  · obtain ⟨hopen', hhosts⟩ := hrewrites.wrote_tombstone (hopen hkey) hown hdead
    exact ⟨fun _ => hopen', hhosts⟩
  · have hnone : s.masterKey = none := Option.not_isSome_iff_eq_none.mp hkey
    have hnone' : t.masterKey = none := hrewrites.masterKey.trans hnone
    refine ⟨fun hsome => ?_, fun other => ?_⟩
    · rw [hnone'] at hsome
      cases hsome
    · have hempty : lastHost [] other = none := rfl
      rw [openHosts_locked hnone, openHosts_locked hnone', hempty, ite_self]

end Edits

end Seance.Vault
