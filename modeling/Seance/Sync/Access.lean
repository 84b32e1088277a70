import Seance.Sync.Alone
import Seance.Sync.Stream

namespace Seance.Sync
open Lib

variable {J : Type}

def Request.userId : Request J → String
  | .createVault userId _ | .uploadSnapshot userId _ _ | .uploadCommit userId _ _
  | .pullCommits userId _ _ _ | .listVaults userId | .getVault userId _ | .bootstrap userId _
  | .openEvents userId _ _ | .createRoom userId _ | .joinRoom userId _
  | .roomToken userId _ _ => userId

/-- The request is about the vault: it names it or a room of it, or lists all there are. -/
def Request.Addresses (db : Database) (vaultId : String) : Request J → Prop
  | .createVault _ body => body.vaultId = vaultId
  | .uploadSnapshot _ v _ | .uploadCommit _ v _ | .pullCommits _ v _ _ | .getVault _ v
  | .bootstrap _ v | .openEvents _ v _ => v = vaultId
  | .createRoom _ body => body.vaultId = vaultId
  | .joinRoom _ roomId | .roomToken _ roomId _ =>
    ∃ room, db.rooms.find? roomId = some room ∧ room.vaultId = vaultId
  | .listVaults _ => True

/-- The routes whose query joins the memberships without a look at `deleted_at`. -/
def Request.skipsDeletion : Request J → Bool
  | .listVaults _ | .joinRoom _ _ | .roomToken _ _ _ => true
  | _ => false

namespace Database

/-- The user's membership of the vault, where it is not revoked. -/
def IsMember (db : Database) (vaultId userId : String) : Prop :=
  ∃ m, db.memberships.find? (vaultId, userId) = some m ∧ m.revokedAt = none

/-- A vault that is deleted or that the user is no member of. -/
structure Barred (db : Database) (vaultId userId : String) : Prop where
  exists_vault : db.hasVault vaultId = true
  barred : (∃ v, db.vaults.find? vaultId = some v ∧ v.deletedAt ≠ none) ∨
    ¬ db.IsMember vaultId userId

variable {db : Database} {vaultId userId roomId : String}

theorem Barred.not_visible (h : db.Barred vaultId userId) : ¬ db.Visible vaultId userId := by
  rintro ⟨row, hrow, hon⟩
  obtain ⟨v, m, hv, hm, hrev, rfl⟩ := vaultForUser_eq_some.mp hrow
  rcases h.barred with ⟨w, hw, hdel⟩ | hno
  · rw [hv] at hw
    cases hw
    exact hdel hon
  · exact hno ⟨m, hm, hrev⟩

theorem exists_vaultForUser_iff (h : db.hasVault vaultId = true) :
    (∃ row, db.vaultForUser vaultId userId = some row) ↔ db.IsMember vaultId userId := by
  obtain ⟨v, hv⟩ := Option.isSome_iff_exists.mp h
  constructor
  · rintro ⟨row, hrow⟩
    obtain ⟨_, m, _, hm, hrev, _⟩ := vaultForUser_eq_some.mp hrow
    exact ⟨m, hm, hrev⟩
  · rintro ⟨m, hm, hrev⟩
    exact ⟨_, vaultForUser_eq_some.mpr ⟨v, m, hv, hm, hrev, rfl⟩⟩

/-- A vault is listed with its own row or not at all. -/
theorem mem_vaultsForUser {row : VaultSummaryRow} :
    row ∈ db.vaultsForUser userId ↔ db.vaultForUser row.vaultId userId = some row := by
  rw [vaultsForUser, mem_orderBy, List.mem_filterMap]
  constructor
  · rintro ⟨v, _, hrow⟩
    obtain ⟨w, _, hw, _, _, rfl⟩ := vaultForUser_eq_some.mp hrow
    change db.vaultForUser w.vaultId userId = _
    rw [Table.find?_key hw] at hrow ⊢
    exact hrow
  · intro hrow
    obtain ⟨v, _, hv, _, _, he⟩ := vaultForUser_eq_some.mp hrow
    exact ⟨v, Table.mem_of_find? hv, by rwa [Table.find?_key hv]⟩

theorem exists_roomForUser_iff {room : RoomRow} (h : db.rooms.find? roomId = some room) :
    (∃ row, db.roomForUser roomId userId = some row) ↔ db.IsMember room.vaultId userId := by
  unfold roomForUser
  rw [h]
  constructor
  · rintro ⟨row, hrow⟩
    dsimp only at hrow
    split at hrow
    · rename_i m hm
      split at hrow
      · rename_i hrev
        exact ⟨m, hm, hrev⟩
      · cases hrow
    · cases hrow
  · rintro ⟨m, hm, hrev⟩
    exact ⟨⟨room.roomId, room.vaultId, room.roomKind⟩, by simp only [hm, hrev, ↓reduceIte]⟩

end Database

/-- The answers that say nothing of any vault. -/
def refusals : List (Reply J) :=
  [.error 401 "User is not authorized.", .error 404 "Vault was not found.",
    .error 404 "Room was not found.",
    .error 400 "Bootstrap snapshot vault_id must match the request vault_id.", internalError]

/-- The answer is a refusal, or a list without the vault. -/
def Reply.Silent (vaultId : String) (reply : Reply J) : Prop :=
  reply ∈ refusals ∨ ∃ rows, reply = .vaults rows ∧ ∀ row ∈ rows, row.vaultId ≠ vaultId

/-- The request alone gets nothing of the vault and changes nothing: no table, no object that was
there, and the only objects it adds are under names of its own. -/
structure Gated (P : Platform J) (i : Nat) (r : Request J) (s : Server J) (vaultId : String) :
    Prop where
  silent : (fetchAlone P i r s).1.Silent vaultId
  db : (fetchAlone P i r s).2.db = s.db
  blobs : ∀ b ∈ s.blobs.rows, ¬ Names P i b.key →
    (fetchAlone P i r s).2.blobs.find? b.key = some b
  added : ∀ b ∈ (fetchAlone P i r s).2.blobs.rows, b ∈ s.blobs.rows ∨ Names P i b.key

/-- The route of a request, for the user it is authenticated as. -/
def routeOf (P : Platform J) (i : Nat) : Request J → AuthenticatedUser → Handler J (Reply J)
  | .createVault _ body, user => createVault P i user body
  | .uploadSnapshot _ vaultId body, user => uploadSnapshot P i user vaultId body
  | .uploadCommit _ vaultId upload, user => uploadCommit P i user vaultId upload
  | .pullCommits _ vaultId afterSeq limit, user => pullCommits user vaultId afterSeq limit
  | .listVaults _, user => listVaults user
  | .getVault _ vaultId, user => getVault user vaultId
  | .bootstrap _ vaultId, user => bootstrap user vaultId
  | .openEvents _ vaultId upgrade, user => openEvents user vaultId upgrade
  | .createRoom _ body, user => createRoom P i user body
  | .joinRoom _ roomId, user => joinRoom P i user roomId
  | .roomToken _ roomId scope, user => roomToken P i user roomId scope

section Gate

variable {P : Platform J} {i : Nat} {r : Request J} {s : Server J} {vaultId : String}

theorem gated_of_silent {reply : Reply J} (h : fetchAlone P i r s = (reply, s))
    (hsilent : reply.Silent vaultId) : Gated P i r s vaultId where
  silent := by rwa [h]
  db := by rw [h]
  blobs b hb _ := by rw [h]; exact Table.find?_of_mem hb
  added b hb := .inl (by rwa [h] at hb)

theorem handleFetch_eq : handleFetch P i r = assertUserActive r.userId >>= routeOf P i r := by
  cases r <;> rfl

theorem fetchAlone_of_not_active (h : ¬ s.db.IsActive r.userId) :
    fetchAlone P i r s = (.error 401 "User is not authorized.", s) := by
  have hhandle : (handleFetch P i r).alone s =
      (some (.error (.http 401 "User is not authorized.")), s) := by
    rw [handleFetch_eq]
    exact Handler.alone_bind_of_error (assertUserActive_of_not_active h)
  exact fetchAlone_of_some hhandle

theorem fetchAlone_of_active (h : s.db.IsActive r.userId) :
    ∃ user : AuthenticatedUser, user.userId = r.userId ∧
      (∀ res t, (routeOf P i r user).alone s = (some res, t) →
        fetchAlone P i r s = (errorReply res, t)) ∧
      ∀ t, (routeOf P i r user).alone s = (none, t) → fetchAlone P i r s = (internalError, t) := by
  obtain ⟨user, huser, halone⟩ := assertUserActive_of_active h
  refine ⟨user, huser, ?_, ?_⟩
  · intro res t hroute
    refine fetchAlone_of_some ?_
    rw [handleFetch_eq, Handler.alone_bind_of_ok halone, hroute]
  · intro t hroute
    refine fetchAlone_of_none ?_
    rw [handleFetch_eq, Handler.alone_bind_of_ok halone, hroute]

/-- A vault that is there cannot be created: the request leaves its object behind at most. -/
theorem createVault_of_hasVault {user : AuthenticatedUser} {body : CreateVaultRequest J}
    (h : s.db.hasVault body.vaultId = true) :
    (createVault P i user body).alone s = (some (.error (.http 400
        "Bootstrap snapshot vault_id must match the request vault_id.")), s) ∨
      (createVault P i user body).alone s = (none, ⟨s.db, s.blobs.put
        ⟨snapshotObjectKey body.vaultId (P.randomUUID i), .snapshot body.bootstrapSnapshot⟩⟩) := by
  unfold createVault
  split
  · exact .inl rfl
  · refine .inr ((Handler.alone_perform_of_some rfl).trans ?_)
    have hfail : ∀ row : VaultRow, row.vaultId = body.vaultId → s.db.insertVault row = none := by
      rintro row hid
      cases hinsert : s.db.insertVault row with
      | none => rfl
      | some db =>
        obtain ⟨vaults, _, hv⟩ := insertVault_rows hinsert
        have hfree := (Table.insert?_eq_some hv).1
        rw [hid] at hfree
        rw [Database.hasVault, hfree] at h
        cases h
    have hcreate : ∀ blobs ownerUserId displayName snapshotId clock now,
        (createVaultForOwner (J := J) body.vaultId ownerUserId displayName snapshotId clock
          now).alone ⟨s.db, blobs⟩ = (none, ⟨s.db, blobs⟩) := by
      intro blobs ownerUserId displayName snapshotId clock now
      refine Handler.alone_perform_of_none ?_
      rw [Op.apply, hfail _ rfl]
      rfl
    rw [Handler.alone_bind, hcreate]

/-- The routes that ask for the vault itself keep a barred user out. -/
theorem gated_of_asks (hr : r.Addresses s.db vaultId) (hb : s.db.Barred vaultId r.userId)
    (hskip : r.skipsDeletion = false) : Gated P i r s vaultId := by
  by_cases hactive : s.db.IsActive r.userId
  · obtain ⟨user, huser, hsome, hnone⟩ := fetchAlone_of_active (P := P) (i := i) hactive
    have hno := hb.not_visible
    rw [← huser] at hno
    have hasks : ∀ f, routeOf P i r user = getVaultForUser vaultId user.userId >>= f →
        Gated P i r s vaultId := by
      intro f hf
      refine gated_of_silent (hsome (.error (.http 404 "Vault was not found.")) s ?_)
        (.inl (by simp [refusals, errorReply]))
      rw [hf]
      exact Handler.alone_bind_of_error (getVaultForUser_of_not_visible hno)
    cases r with
    | createVault userId body =>
      obtain rfl : body.vaultId = vaultId := hr
      rcases createVault_of_hasVault hb.exists_vault with h | h
      · exact gated_of_silent (hsome _ _ h) (.inl (by simp [refusals, errorReply]))
      · have hcrash := hnone _ h
        exact {
          silent := by
            rw [hcrash]
            exact .inl (by simp [refusals])
          db := by rw [hcrash]
          blobs := by
            intro b hmem hname
            rw [hcrash, Table.find?_put, if_neg]
            · exact Table.find?_of_mem hmem
            · intro hkey
              exact hname (hkey ▸ names_snapshotObjectKey _)
          added := by
            intro b hmem
            rw [hcrash] at hmem
            rcases Table.mem_put.mp hmem with rfl | ⟨hold, _⟩
            · exact .inr (names_snapshotObjectKey _)
            · exact .inl hold }
    | uploadSnapshot userId v body =>
      obtain rfl : v = vaultId := hr
      exact hasks _ rfl
    | uploadCommit userId v upload =>
      obtain rfl : v = vaultId := hr
      exact hasks _ rfl
    | pullCommits userId v afterSeq limit =>
      obtain rfl : v = vaultId := hr
      exact hasks _ rfl
    | getVault userId v =>
      obtain rfl : v = vaultId := hr
      exact hasks _ rfl
    | bootstrap userId v =>
      obtain rfl : v = vaultId := hr
      exact hasks _ rfl
    | openEvents userId v upgrade =>
      obtain rfl : v = vaultId := hr
      exact hasks _ rfl
    | createRoom userId body =>
      obtain rfl : body.vaultId = vaultId := hr
      exact hasks _ rfl
    | listVaults userId => cases hskip
    | joinRoom userId roomId => cases hskip
    | roomToken userId roomId scope => cases hskip
  · exact gated_of_silent (fetchAlone_of_not_active hactive) (.inl (by simp [refusals]))

theorem not_silent_iff {reply : Reply J} (hreply : ∀ status message,
    reply ≠ .error status message) : ¬ reply.Silent vaultId ↔
      ∀ rows, reply = .vaults rows → ∃ row ∈ rows, row.vaultId = vaultId := by
  constructor
  · intro h rows he
    by_contra hno
    exact h (.inr ⟨rows, he, fun row hrow hid => hno ⟨row, hrow, hid⟩⟩)
  · rintro h (hmem | ⟨rows, he, hno⟩)
    · simp only [refusals, internalError, List.mem_cons, List.not_mem_nil, or_false] at hmem
      rcases hmem with rfl | rfl | rfl | rfl | rfl <;> exact hreply _ _ rfl
    · obtain ⟨row, hrow, hid⟩ := h rows he
      exact hno row hrow hid

/-- The other routes let in whoever has an unrevoked membership. -/
theorem gated_iff_of_skips (hr : r.Addresses s.db vaultId) (hb : s.db.Barred vaultId r.userId)
    (hskip : r.skipsDeletion = true) (hactive : s.db.IsActive r.userId) :
    Gated P i r s vaultId ↔ ¬ s.db.IsMember vaultId r.userId := by
  obtain ⟨user, huser, hsome, _⟩ := fetchAlone_of_active (P := P) (i := i) hactive
  have hroom : ∀ {roomId : String} {room : RoomRow} {f : RoomSummaryRow → Handler J (Reply J)},
      s.db.rooms.find? roomId = some room → room.vaultId = vaultId →
      routeOf P i r user = getRoomForUser roomId user.userId >>= f →
      (∀ row, ∃ reply, (∀ status message, reply ≠ .error status message) ∧
        (∀ rows, reply ≠ .vaults rows) ∧ (f row).alone s = (some (.ok reply), s)) →
      (Gated P i r s vaultId ↔ ¬ s.db.IsMember vaultId r.userId) := by
    intro roomId room f hfind hid hf hreply
    subst hid
    rw [← Database.exists_roomForUser_iff hfind, ← huser]
    constructor
    · rintro h ⟨row, hrow⟩
      obtain ⟨reply, herr, hrows, halone⟩ := hreply row
      have hgot : fetchAlone P i r s = (reply, s) := by
        refine hsome (.ok reply) s ?_
        rw [hf, Handler.alone_bind_of_ok (getRoomForUser_of_some hrow), halone]
      have hsilent := h.silent
      rw [hgot] at hsilent
      exact (not_silent_iff herr).mpr (fun rows he => absurd he (hrows rows)) hsilent
    · intro hno
      have hnone : s.db.roomForUser roomId user.userId = none := by
        cases hrow : s.db.roomForUser roomId user.userId with
        | none => rfl
        | some row => exact absurd ⟨row, hrow⟩ hno
      refine gated_of_silent (hsome (.error (.http 404 "Room was not found.")) s ?_)
        (.inl (by simp [refusals, errorReply]))
      rw [hf]
      exact Handler.alone_bind_of_error (getRoomForUser_of_none hnone)
  cases r with
  | listVaults userId =>
    have hgot := hsome (.ok (.vaults (s.db.vaultsForUser user.userId))) s rfl
    rw [huser] at hgot
    rw [← Database.exists_vaultForUser_iff hb.exists_vault]
    constructor
    · rintro h ⟨row, hrow⟩
      have hsilent := h.silent
      rw [hgot] at hsilent
      refine (not_silent_iff (fun _ _ he => by cases he)).mpr ?_ hsilent
      rintro rows ⟨⟩
      have hid : row.vaultId = vaultId := by
        obtain ⟨v, _, hv, _, _, rfl⟩ := Database.vaultForUser_eq_some.mp hrow
        have hkey : v.vaultId = vaultId := Table.find?_key hv
        exact hkey
      exact ⟨row, Database.mem_vaultsForUser.mpr (hid.symm ▸ hrow), hid⟩
    · intro hno
      refine gated_of_silent hgot (.inr ⟨_, rfl, ?_⟩)
      rintro row hrow rfl
      exact hno ⟨row, Database.mem_vaultsForUser.mp hrow⟩
  | joinRoom userId roomId =>
    obtain ⟨room, hfind, hid⟩ := hr
    exact hroom hfind hid rfl (fun row => ⟨_, by simp, by simp, rfl⟩)
  | roomToken userId roomId scope =>
    obtain ⟨room, hfind, hid⟩ := hr
    exact hroom hfind hid rfl (fun row => ⟨_, by simp, by simp, rfl⟩)
  | createVault userId body => cases hskip
  | uploadSnapshot userId v body => cases hskip
  | uploadCommit userId v upload => cases hskip
  | pullCommits userId v afterSeq limit => cases hskip
  | getVault userId v => cases hskip
  | bootstrap userId v => cases hskip
  | openEvents userId v upgrade => cases hskip
  | createRoom userId body => cases hskip

/-- A request about a vault that is deleted, or of which its user has no unrevoked membership,
gets nothing and changes nothing but for the list of vaults and the rooms of a deleted vault,
which an active member goes on to get. -/
theorem access_gate_iff (P : Platform J) (i : Nat) (r : Request J) (s : Server J)
    (vaultId : String) (hr : r.Addresses s.db vaultId) (hb : s.db.Barred vaultId r.userId) :
    Gated P i r s vaultId ↔ ¬ (r.skipsDeletion = true ∧ s.db.IsActive r.userId ∧
      s.db.IsMember vaultId r.userId) := by
  cases hskip : r.skipsDeletion with
  | false => simpa using gated_of_asks hr hb hskip
  | true =>
    by_cases hactive : s.db.IsActive r.userId
    · simpa [hactive] using gated_iff_of_skips hr hb hskip hactive
    · simpa [hactive] using gated_of_silent (fetchAlone_of_not_active hactive)
        (.inl (by simp [refusals]))

end Gate

section Example
open Sample

/-- A user who is a member of a deleted vault with a room, and a user who is not. -/
def deletedVault : Server Unit where
  db := {
    users := ⟨[⟨"u", "u@example.com", none⟩, ⟨"w", "w@example.com", none⟩], by simp⟩
    vaults := ⟨[⟨"v", "u", "vault", 0, 5, some 5, 0, 1, none⟩], by simp⟩
    memberships := ⟨[⟨"v", "u", "owner", 0, some 0, none⟩], by simp⟩
    replicas := .empty
    manifests := .empty
    commits := .empty
    idempotencyKeys := .empty
    rooms := ⟨[⟨"r", "v", "u", "room", "terminal", none, 1⟩], by simp⟩ }
  blobs := .empty

theorem access_gate_iff_deletedVault :
    Gated platform 0 (.roomToken "w" "r" .publish) deletedVault "v" := by
  refine (access_gate_iff platform 0 (.roomToken "w" "r" .publish) deletedVault "v"
    ⟨⟨"r", "v", "u", "room", "terminal", none, 1⟩, by decide +kernel⟩
    ⟨by decide +kernel, .inl ⟨⟨"v", "u", "vault", 0, 5, some 5, 0, 1, none⟩,
      by decide +kernel⟩⟩).mpr ?_
  rintro ⟨_, _, m, hm, _⟩
  have hnone : deletedVault.db.memberships.find? ("v", "w") = none := by decide +kernel
  cases hnone.symm.trans hm

theorem deletedVault_disclosed :
    deletedVault.db.Barred "v" "u" ∧
    ¬ Gated platform 0 (.roomToken "u" "r" .publish) deletedVault "v" ∧
    ¬ Gated platform 0 (.listVaults "u") deletedVault "v" := by
  refine ⟨⟨by decide +kernel, .inl ⟨⟨"v", "u", "vault", 0, 5, some 5, 0, 1, none⟩,
    by decide +kernel⟩⟩, ?_, ?_⟩
  · intro h
    have hgot : (fetchAlone platform 0 (.roomToken "u" "r" .publish) deletedVault).1 =
        .roomToken "r" "token" 300 "https://moq.example.com" := by decide +kernel
    have hsilent := h.silent
    rw [hgot] at hsilent
    exact (not_silent_iff (by simp)).mpr (by simp) hsilent
  · intro h
    have hgot : (fetchAlone platform 0 (.listVaults "u") deletedVault).1 =
        .vaults [⟨"v", "vault", "owner", 0, 5, some 5, 0, 1, none⟩] := by decide +kernel
    have hsilent := h.silent
    rw [hgot] at hsilent
    exact (not_silent_iff (by simp)).mpr (by simp) hsilent

end Example

end Seance.Sync
