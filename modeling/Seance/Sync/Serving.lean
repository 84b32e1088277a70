import Seance.Sync.Ownership

namespace Seance.Sync
open Lib

variable {J : Type}

namespace Database

def IsActive (db : Database) (userId : String) : Prop :=
  ∃ row, db.users.find? userId = some row ∧ row.disabledAt = none

/-- The vault is there, not deleted, and the user is a member of it. -/
def Visible (db : Database) (vaultId userId : String) : Prop :=
  ∃ row, db.vaultForUser vaultId userId = some row ∧ row.deletedAt = none

instance (db : Database) (userId : String) : Decidable (db.IsActive userId) :=
  inferInstanceAs (Decidable (∃ row ∈ db.users.find? userId, row.disabledAt = none))

instance (db : Database) (vaultId userId : String) : Decidable (db.Visible vaultId userId) :=
  inferInstanceAs (Decidable (∃ row ∈ db.vaultForUser vaultId userId, row.deletedAt = none))

theorem vaultForUser_eq_some {db : Database} {vaultId userId : String} {row : VaultSummaryRow} :
    db.vaultForUser vaultId userId = some row ↔ ∃ v m, db.vaults.find? vaultId = some v ∧
      db.memberships.find? (vaultId, userId) = some m ∧ m.revokedAt = none ∧
      row = ⟨v.vaultId, v.displayName, m.role, v.createdAt, v.updatedAt, v.deletedAt,
        v.currentStreamSeq, v.currentLogicalClock, v.latestSnapshotId⟩ := by
  unfold vaultForUser
  constructor
  · intro h
    split at h
    · rename_i v m hv hm
      split at h
      · rename_i hrev
        cases h
        exact ⟨v, m, hv, hm, hrev, rfl⟩
      · cases h
    · cases h
  · rintro ⟨v, m, hv, hm, hrev, rfl⟩
    simp only [hv, hm, hrev, ↓reduceIte]

/-- The latest manifest of a vault is one of its manifests. -/
theorem mem_latestManifest {db : Database} {vaultId : String} {m : SnapshotManifestRow}
    (h : db.latestManifest vaultId = some m) : m ∈ db.manifests.rows ∧ m.vaultId = vaultId := by
  have hmem := List.mem_of_getLast? h
  rw [mem_orderBy, List.mem_filter, decide_eq_true_eq] at hmem
  exact hmem

end Database

/-- A vault row as a worker may be holding it: read once, the vault may since have moved. -/
structure Held (row : VaultSummaryRow) (s : Server J) : Prop where
  nonneg : 0 ≤ row.currentStreamSeq
  vault : ∃ v, s.db.vaults.find? row.vaultId = some v ∧
    row.currentStreamSeq ≤ v.currentStreamSeq

/-- The checks `appendCommit` makes on an upload. -/
structure WellFormed (vaultId : String) (upload : CommitUploadRequest J) : Prop where
  vault : upload.delta.vaultId = vaultId
  clocks : upload.delta.fromClock ≤ upload.delta.toClock
  size : upload.delta.records.length ≤ 512

instance (vaultId : String) (upload : CommitUploadRequest J) :
    Decidable (WellFormed vaultId upload) :=
  decidable_of_iff (upload.delta.vaultId = vaultId ∧
      upload.delta.fromClock ≤ upload.delta.toClock ∧ upload.delta.records.length ≤ 512)
    ⟨fun h => ⟨h.1, h.2.1, h.2.2⟩, fun h => ⟨h.vault, h.clocks, h.size⟩⟩

section Stable

variable {s t : Server J} {userId vaultId : String}

theorem Grows.isActive (h : Grows s t) (ha : s.db.IsActive userId) : t.db.IsActive userId := by
  obtain ⟨row, hrow, hon⟩ := ha
  exact ⟨row, h.users _ _ hrow, hon⟩

theorem Grows.visible (h : Grows s t) (hv : s.db.Visible vaultId userId) :
    t.db.Visible vaultId userId := by
  obtain ⟨row, hrow, hdel⟩ := hv
  obtain ⟨v, m, hv, hm, hrev, rfl⟩ := Database.vaultForUser_eq_some.mp hrow
  obtain ⟨w, hw, hdel', _⟩ := h.vaults _ v hv
  exact ⟨_, Database.vaultForUser_eq_some.mpr ⟨w, m, hw, h.memberships _ _ hm, hrev, rfl⟩,
    hdel'.trans hdel⟩

theorem Grows.held {row : VaultSummaryRow} (h : Grows s t) (hr : Held row s) : Held row t := by
  obtain ⟨v, hv, hle⟩ := hr.vault
  obtain ⟨w, hw, _, hle'⟩ := h.vaults _ v hv
  exact ⟨hr.nonneg, w, hw, Int.le_trans hle hle'⟩

theorem Grows.hasUser (h : Grows s t) (hu : s.db.hasUser userId = true) :
    t.db.hasUser userId = true := by
  obtain ⟨row, hrow⟩ := Option.isSome_iff_exists.mp hu
  exact Option.isSome_iff_exists.mpr ⟨row, h.users _ _ hrow⟩

theorem Database.IsActive.hasUser {db : Database} (h : db.IsActive userId) :
    db.hasUser userId = true := by
  obtain ⟨row, hrow, _⟩ := h
  exact Option.isSome_iff_exists.mpr ⟨row, hrow⟩

/-- A row just read is one a worker may hold from then on. -/
theorem held_of_read (hs : Consistent s) {row : VaultSummaryRow}
    (h : s.db.vaultForUser vaultId userId = some row) : row.vaultId = vaultId ∧ Held row s := by
  obtain ⟨v, m, hv, _, _, rfl⟩ := Database.vaultForUser_eq_some.mp h
  have hid := Table.find?_key hv
  refine ⟨hid, hs.head v (Table.mem_of_find? hv), v, ?_, Int.le_refl _⟩
  rw [← hid] at hv
  exact hv

end Stable

variable (P : Platform J) (T : Terms (Server J) (Request J) (Op J))

/-- The handler, run by the i-th request among the others, ends in the postcondition. -/
def Serves {α : Type} (i : Nat) (r : Request J) (Q : Except Failure α → Server J → Prop)
    (x : Handler J α) (s : Server J) : Prop :=
  Safe (syncService P) (growth P T) i r Q x.run s

namespace Serves

variable {P T} {α β : Type} {i : Nat} {r : Request J} {s : Server J}
variable {Q : Except Failure α → Server J → Prop}

theorem pure {a : α} (h : Q (.ok a) s) : Serves P T i r Q (pure a) s := h

theorem httpError {status : Nat} {message : String} (h : Q (.error (.http status message)) s) :
    Serves P T i r Q (httpError status message) s := h

theorem mono {Q' : Except Failure α → Server J → Prop} {x : Handler J α}
    (h : Serves P T i r Q x s) (hq : ∀ res t, Q res t → Q' res t) : Serves P T i r Q' x s :=
  Safe.mono h hq

theorem bind {x : Handler J β} {f : β → Handler J α}
    (h : Serves P T i r (fun res t => (∀ c, res = .ok c → Serves P T i r Q (f c) t) ∧
      (∀ e, res = .error e → Q (.error e) t)) x s) : Serves P T i r Q (x >>= f) s :=
  Safe.except_bind h

/-- The two ways on after a bound computation. -/
theorem returned {a : β} {f : β → Handler J α} (h : Serves P T i r Q (f a) s) :
    (∀ c, (Except.ok a : Except Failure β) = .ok c → Serves P T i r Q (f c) s) ∧
      (∀ e, (Except.ok a : Except Failure β) = .error e → Q (.error e) s) := by
  constructor
  · intro c hc
    cases hc
    exact h
  · intro e he
    cases he

theorem thrown {e : Failure} {f : β → Handler J α} (h : Q (.error e) s) :
    (∀ c, (Except.error e : Except Failure β) = .ok c → Serves P T i r Q (f c) s) ∧
      (∀ e', (Except.error e : Except Failure β) = .error e' → Q (.error e') s) := by
  constructor
  · intro c hc
    cases hc
  · intro e' he
    cases he
    exact h

theorem perform {op : Op J} {f : op.Answer → Handler J α}
    (hnone : ∀ t, LeavesAlone P T i r s t → Consistent t → T.legal i r op t →
      op.apply t = none → T.faulty i r)
    (hsome : ∀ t b u, LeavesAlone P T i r s t → Consistent t → op.apply t = some (b, u) →
      Consistent u ∧ Moves P T i r t u ∧ (T.legal i r op t → Serves P T i r Q (f b) u)) :
    Serves P T i r Q (perform op >>= f) s :=
  Safe.await hnone hsome

/-- A statement that only reads. -/
theorem select {op : Op J} {f : op.Answer → Handler J α} {g : Server J → op.Answer}
    (hop : ∀ t, op.apply t = some (g t, t))
    (h : ∀ t, LeavesAlone P T i r s t → Consistent t → T.legal i r op t →
      Serves P T i r Q (f (g t)) t) : Serves P T i r Q (Sync.perform op >>= f) s :=
  Safe.read hop (fun t => Moves.refl t) h

/-- A statement that cannot fail. -/
theorem write {op : Op J} {f : op.Answer → Handler J α} {b : op.Answer} {g : Server J → Server J}
    (hop : ∀ t, op.apply t = some (b, g t))
    (h : ∀ t, LeavesAlone P T i r s t → Consistent t →
      Consistent (g t) ∧ Moves P T i r t (g t) ∧ Serves P T i r Q (f b) (g t)) :
    Serves P T i r Q (Sync.perform op >>= f) s := by
  refine perform ?_ ?_
  · intro t _ _ _ hnone
    rw [hop] at hnone
    cases hnone
  · intro t b' u hrely hinv hsome
    rw [hop] at hsome
    cases hsome
    obtain ⟨hinv', hmoves, hserves⟩ := h t hrely hinv
    exact ⟨hinv', hmoves, fun _ => hserves⟩

end Serves

section Functions

variable {P T} {i : Nat} {r : Request J} {s : Server J}

theorem serves_assertUserActive {userId : String}
    {Q : Except Failure AuthenticatedUser → Server J → Prop}
    (hok : ∀ t user, LeavesAlone P T i r s t → user.userId = userId → t.db.IsActive userId →
      Q (.ok user) t)
    (herr : ∀ t, LeavesAlone P T i r s t → ¬ t.db.IsActive userId →
      Q (.error (.http 401 "User is not authorized.")) t) :
    Serves P T i r Q (assertUserActive userId) s := by
  refine Serves.select (g := fun t => t.db.users.find? userId) (fun _ => rfl) ?_
  intro t hrely _ _
  split
  · rename_i hnone
    refine Serves.httpError (herr t hrely ?_)
    rintro ⟨row, hrow, _⟩
    rw [hnone] at hrow
    cases hrow
  · rename_i row hrow
    split
    · rename_i hon
      have hid : row.userId = userId := Table.find?_key hrow
      exact Serves.pure (hok t ⟨row.userId, row.primaryEmail⟩ hrely hid ⟨row, hrow, hon⟩)
    · rename_i hoff
      refine Serves.httpError (herr t hrely ?_)
      rintro ⟨row', hrow', hon⟩
      rw [hrow] at hrow'
      cases hrow'
      exact hoff hon

theorem serves_getVaultForUser {vaultId userId : String}
    {Q : Except Failure VaultSummaryRow → Server J → Prop}
    (hok : ∀ t row, LeavesAlone P T i r s t → Consistent t →
      T.legal i r (.selectVaultForUser vaultId userId) t →
      t.db.vaultForUser vaultId userId = some row → Q (.ok row) t)
    (herr : ∀ t, LeavesAlone P T i r s t → ¬ t.db.Visible vaultId userId →
      Q (.error (.http 404 "Vault was not found.")) t) :
    Serves P T i r Q (getVaultForUser vaultId userId) s := by
  refine Serves.select (g := fun t => t.db.vaultForUser vaultId userId) (fun _ => rfl) ?_
  intro t hrely hinv hlegal
  split
  · rename_i hnone
    refine Serves.httpError (herr t hrely ?_)
    rintro ⟨row, hrow, _⟩
    rw [hnone] at hrow
    cases hrow
  · rename_i row hrow
    split
    · exact Serves.pure (hok t row hrely hinv hlegal hrow)
    · rename_i hdel
      refine Serves.httpError (herr t hrely ?_)
      rintro ⟨row', hrow', hdel'⟩
      rw [hrow] at hrow'
      cases hrow'
      exact hdel hdel'

end Functions

end Seance.Sync
