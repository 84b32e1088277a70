import Seance.Core.Published
import Seance.Vault.KeyListing

namespace Seance.Core
open Lib Vault Config

/-- The type and the key of a public key in its OpenSSH form; what follows them is its comment. -/
def key_material (public_key_openssh : String) : List (List Char) :=
  (public_key_openssh.toList.splitOn ' ').take 2

section Claims

variable (env : AppEnv) (w : HandleWorld)

/-- The private keys of an open vault, as it lists them. -/
def private_keys (c : AppController) (vault_id : String) : List VaultPrivateKey :=
  match (c.vaults.get vault_id).bind ManagedVaultState.store with
  | some store => ((listedKeys env.primitives store).toOption).getD []
  | none => []

/-- No key that is there since then has the material of another. -/
def NoTwins (before after : List VaultPrivateKey) : Prop :=
  ∀ a ∈ after, (∀ key ∈ before, key.id ≠ a.id) → ∀ b ∈ after, a.id ≠ b.id →
    key_material a.publicKeyOpenssh ≠ key_material b.publicKeyOpenssh

/-- A run of a batch on a vault that has stored no key, and answers so. -/
def BringsNothing (c : AppController) (vault_id : String)
    (run : EStateM.Result AppError AppController (List VaultScopedKeySummary)) : Prop :=
  private_keys env (stateOf run) vault_id = private_keys env c vault_id ∧
    ∀ imported d, run = .ok imported d → imported = []

/-- A batch brings no key that is there, and run again it brings nothing. -/
def Deduplicates (c : AppController) (vault_id : String)
    (requests : List ImportPrivateKeyFromPathRequest) : Prop :=
  let d := finalState (import_private_keys_from_paths env w vault_id requests) c
  NoTwins (private_keys env c vault_id) (private_keys env d vault_id) ∧
    ∀ again : HandleWorld, again.read_to_string = w.read_to_string →
      BringsNothing env d vault_id
        ((import_private_keys_from_paths env again vault_id requests).run d)

/-- A key can be stored that has a label and a text, in a vault that is open and has room. -/
def Storable (store : VaultStore) (stored : Nat) (request : ImportPrivateKeyFromPathRequest)
    (private_key_pem : String) : Prop :=
  isBlank request.key_label = false ∧ isBlank private_key_pem = false ∧ Room store stored

/-- No key is stored whose material is known under another text. -/
def NoneRetold (store : VaultStore) :
    Nat → List String → List ImportPrivateKeyFromPathRequest → Prop
  | _, _, [] => True
  | stored, known, request :: rest =>
    ∀ private_key_pem inspection, w.read_to_string request.path = .ok private_key_pem →
      inspect_private_key_pem env.primitives private_key_pem = .ok inspection →
      if inspection.public_key_openssh ∈ known then NoneRetold store stored known rest
      else Storable store stored request private_key_pem →
        (∀ text ∈ known, key_material text ≠ key_material inspection.public_key_openssh) ∧
          NoneRetold store (stored + 1) (inspection.public_key_openssh :: known) rest

/-- That holds of the batch on the vault as it is, if it is open and its keys can be listed. -/
def RetellsNone (c : AppController) (vault_id : String)
    (requests : List ImportPrivateKeyFromPathRequest) : Prop :=
  ∀ entry store error known, c.vaults.get vault_id = some ⟨entry, some store, error⟩ →
    known_public_keys env store = .ok known → NoneRetold env w store 0 known requests

/-- The ids that a batch draws are new and all different. -/
structure FreshIds (c : AppController) (vault_id : String) : Prop where
  distinct : Function.Injective fun n => (w.key_world n).recordUuid.text
  no_record : ∀ entry store error, c.vaults.get vault_id = some ⟨entry, some store, error⟩ →
    ∀ n, store.conn.db.records.find? (w.key_world n).recordUuid.text = none
  no_key : ∀ key ∈ private_keys env c vault_id, ∀ n, key.id ≠ (w.key_world n).recordUuid.text

/-- Up to the first request that fails, the keys of a batch are known. -/
def Settled (store : VaultStore) (known : List String) :
    List ImportPrivateKeyFromPathRequest → Prop
  | [] => True
  | request :: rest =>
    ∀ private_key_pem inspection, w.read_to_string request.path = .ok private_key_pem →
      inspect_private_key_pem env.primitives private_key_pem = .ok inspection →
      if inspection.public_key_openssh ∈ known then Settled store known rest
      else ¬ Storable store 0 request private_key_pem

end Claims

variable {env : AppEnv} {w : HandleWorld} {c d : AppController} {vault_id : String}
  {entry : VaultRegistryEntry} {store : VaultStore} {error : Option VaultError}
  {keys base : List VaultPrivateKey} {key : VaultPrivateKey}
  {requests : List ImportPrivateKeyFromPathRequest}

theorem known_public_keys_eq (store : VaultStore) : known_public_keys env store =
    (listedKeys env.primitives store).map (fun keys => keys.map VaultPrivateKey.publicKeyOpenssh) := by
  unfold known_public_keys listedKeys
  cases listPrivateKeys env.primitives store with
  | error e => rfl
  | ok summaries =>
    change Except.ok (summaries.filterMap _) = Except.ok ((summaries.filterMap _).map _)
    rw [List.map_filterMap]
    congr 2
    funext summary
    unfold loadedKey
    cases loadPrivateKey env.primitives store summary.id with
    | error e => rfl
    | ok found => cases found <;> rfl

theorem listed_of_known {known : List String} (h : known_public_keys env store = .ok known) :
    ∃ keys, listedKeys env.primitives store = .ok keys := by
  rw [known_public_keys_eq] at h
  cases hkeys : listedKeys env.primitives store with
  | error e =>
    rw [hkeys] at h
    cases h
  | ok keys => exact ⟨keys, rfl⟩

theorem private_keys_open (hget : c.vaults.get vault_id = some ⟨entry, some store, error⟩)
    (hkeys : listedKeys env.primitives store = .ok keys) : private_keys env c vault_id = keys := by
  unfold private_keys
  rw [hget]
  change ((listedKeys env.primitives store).toOption).getD [] = keys
  rw [hkeys]
  rfl

theorem NoTwins.refl (keys : List VaultPrivateKey) : NoTwins keys keys :=
  fun a ha hnew _ _ _ => absurd rfl (hnew a ha)

theorem BringsNothing.of_error {e : AppError}
    (h : private_keys env d vault_id = private_keys env c vault_id) :
    BringsNothing env c vault_id (.error e d) := by
  refine ⟨h, fun _ _ hrun => ?_⟩
  cases hrun

/-- A key that joins the others must not have the material of one of them. -/
theorem noTwins_joined {keys' : List VaultPrivateKey}
    (hjoined : ∀ k, k ∈ keys' ↔ k = key ∨ k ∈ keys) (hbase : ∀ k ∈ base, k.id ≠ key.id)
    (hkeys : ∀ k ∈ keys, k.id ≠ key.id) :
    NoTwins base keys' ↔ NoTwins base keys ∧
      ∀ k ∈ keys, key_material k.publicKeyOpenssh ≠ key_material key.publicKeyOpenssh := by
  constructor
  · intro h
    refine ⟨fun a ha hnew b hb => h a ((hjoined a).mpr (.inr ha)) hnew b ((hjoined b).mpr (.inr hb)),
      fun k hk => ?_⟩
    exact (h key ((hjoined key).mpr (.inl rfl)) hbase k ((hjoined k).mpr (.inr hk))
      (hkeys k hk).symm).symm
  · rintro ⟨hold, hnew⟩ a ha hafter b hb hne
    rcases (hjoined a).mp ha with rfl | ha
    · rcases (hjoined b).mp hb with rfl | hb
      · exact absurd rfl hne
      · exact (hnew b hb).symm
    · rcases (hjoined b).mp hb with rfl | hb
      · exact hnew a ha
      · exact hold a ha hafter b hb hne

/-- What is inspected is what is stored. -/
theorem imported_public_key {private_key_pem label : String} {inspection : PrivateKeyInspection}
    (hinspect : inspect_private_key_pem env.primitives private_key_pem = .ok inspection)
    (hkey : importedPrivateKey env.primitives ⟨label, private_key_pem⟩ = .ok key) :
    key.publicKeyOpenssh = inspection.public_key_openssh := by
  obtain ⟨private_key, hparse, hinspect⟩ := except_bind_ok.mp hinspect
  obtain ⟨_, halgorithm, hinspect⟩ := except_bind_ok.mp hinspect
  obtain ⟨text, htext, hinspect⟩ := except_bind_ok.mp hinspect
  cases hinspect
  obtain ⟨private_key', hparse', hkey⟩ := except_bind_ok.mp hkey
  cases hparse.symm.trans hparse'
  obtain ⟨_, _, hkey⟩ := except_bind_ok.mp hkey
  obtain ⟨text', htext', hkey⟩ := except_bind_ok.mp hkey
  cases htext.symm.trans htext'
  cases hkey
  rfl

/-- A batch on its way: what it knows are the keys of the vault, and the ids to come are new. -/
structure Underway (env : AppEnv) (w : HandleWorld) (vault_id : String)
    (entry : VaultRegistryEntry) (error : Option VaultError) (first : VaultStore)
    (base : List VaultPrivateKey) (c : AppController) (store : VaultStore) (stored : Nat)
    (known : List String) (keys : List VaultPrivateKey) : Prop where
  is_open : c.vaults.get vault_id = some ⟨entry, some store, error⟩
  listed : listedKeys env.primitives store = .ok keys
  known : ∀ text, text ∈ known ↔ text ∈ keys.map VaultPrivateKey.publicKeyOpenssh
  new_record : ∀ n, stored ≤ n →
    store.conn.db.records.find? (w.key_world n).recordUuid.text = none
  new_key : ∀ n, stored ≤ n → ∀ key ∈ keys, key.id ≠ (w.key_world n).recordUuid.text
  new_base : ∀ n, ∀ key ∈ base, key.id ≠ (w.key_world n).recordUuid.text
  room : ∀ more, Room first (stored + more) ↔ Room store more

/-- How a batch ends, with an answer or an error. -/
structure Ends (env : AppEnv) (w : HandleWorld) (vault_id : String) (entry : VaultRegistryEntry)
    (error : Option VaultError) (first : VaultStore) (base keys : List VaultPrivateKey)
    (stored : Nat) (known : List String) (requests : List ImportPrivateKeyFromPathRequest)
    (d : AppController) (store' : VaultStore) (keys' : List VaultPrivateKey) : Prop where
  is_open : d.vaults.get vault_id = some ⟨entry, some store', error⟩
  listed : listedKeys env.primitives store' = .ok keys'
  grows : ∀ key ∈ keys, key ∈ keys'
  twins : NoTwins base keys' ↔ NoTwins base keys ∧ NoneRetold env w first stored known requests
  settled : Settled env w store' (keys'.map VaultPrivateKey.publicKeyOpenssh) requests

section Loop

variable {first : VaultStore} {stored : Nat} {known : List String}
  {request : ImportPrivateKeyFromPathRequest} {rest : List ImportPrivateKeyFromPathRequest}
  {private_key_pem : String} {inspection : PrivateKeyInspection} {e : AppError}

theorem unread_error (hunread : (read_private_key w request.path).run c = .error e d) :
    c = d ∧ ∀ private_key_pem, w.read_to_string request.path ≠ .ok private_key_pem := by
  unfold read_private_key at hunread
  rw [run_query] at hunread
  cases hread : w.read_to_string request.path with
  | ok private_key_pem =>
    simp only [hread] at hunread
    cases hunread
  | error source =>
    simp only [hread] at hunread
    cases hunread
    exact ⟨rfl, nofun⟩

theorem uninspected_error (h : (inspect_private_key env private_key_pem).run c = .error e d) :
    c = d ∧ ∀ inspection, inspect_private_key_pem env.primitives private_key_pem ≠ .ok inspection := by
  unfold inspect_private_key at h
  rw [run_query] at h
  cases hinspect : inspect_private_key_pem env.primitives private_key_pem with
  | ok inspection =>
    simp only [hinspect] at h
    cases h
  | error source =>
    simp only [hinspect] at h
    cases h
    exact ⟨rfl, nofun⟩

/-- A request that fails ends the batch with what it has stored so far. -/
theorem Underway.ends (hu : Underway env w vault_id entry error first base c store stored known keys)
    {store' : VaultStore} (hopen : d.vaults.get vault_id = some ⟨entry, some store', error⟩)
    (hlisted : listedKeys env.primitives store' = .ok keys)
    (hfails : ∀ private_key_pem inspection, w.read_to_string request.path = .ok private_key_pem →
      inspect_private_key_pem env.primitives private_key_pem = .ok inspection →
      inspection.public_key_openssh ∉ known ∧ ¬ Storable first stored request private_key_pem ∧
        ¬ Storable store' 0 request private_key_pem) :
    Ends env w vault_id entry error first base keys stored known (request :: rest) d store' keys := by
  refine ⟨hopen, hlisted, fun _ h => h, (and_iff_left ?_).symm, ?_⟩
  · intro private_key_pem inspection hread hinspect
    obtain ⟨hnew, hrefused, _⟩ := hfails private_key_pem inspection hread hinspect
    rw [if_neg hnew]
    exact fun h => absurd h hrefused
  · intro private_key_pem inspection hread hinspect
    obtain ⟨hnew, _, hrefused⟩ := hfails private_key_pem inspection hread hinspect
    rw [if_neg (mt (hu.known _).mpr hnew)]
    exact hrefused

/-- A key that could be inspected and is not stored could not be, and still cannot. -/
theorem Underway.refused
    (hu : Underway env w vault_id entry error first base c store stored known keys)
    (ideal : IdealAead env.primitives)
    (hinspect : inspect_private_key_pem env.primitives private_key_pem = .ok inspection)
    (h : (with_store vault_id (importPrivateKey env.primitives (w.key_world stored)
      ⟨request.key_label, private_key_pem⟩)).run c = .error e d) :
    ∃ store', d.vaults.get vault_id = some ⟨entry, some store', error⟩ ∧
      listedKeys env.primitives store' = .ok keys ∧
      ¬ Storable first stored request private_key_pem ∧
      ¬ Storable store' 0 request private_key_pem := by
  rcases with_store_error h with ⟨_, hnone⟩ | ⟨_, _, _, source, after, hget, hrun, rfl⟩
  · exact absurd hu.is_open (hnone _ _ _)
  cases hu.is_open.symm.trans hget
  obtain ⟨hsame, hroom⟩ := importPrivateKey_refused hrun
  have hlisted : listedKeys env.primitives (at_rest after) = listedKeys env.primitives store :=
    SameRecords.listedKeys ⟨hsame.masterKey, hsame.vaultId, hsame.records⟩
  have hnot : ¬ Storable store 0 request private_key_pem := by
    rintro ⟨hlabel, hblank, hroom⟩
    obtain ⟨key, hkey⟩ := imported_of_inspected hinspect request.key_label
    have hfound : Room { store with deviceStore := c.device_store } 0 := hroom
    obtain ⟨_, _, hok, _⟩ :=
      importPrivateKey_run (w := w.key_world stored) ideal hkey hlabel hblank hfound
    cases hrun.symm.trans hok
  refine ⟨at_rest after, get_put_vault _ _ _, hlisted.trans hu.listed, ?_, ?_⟩
  · exact fun ⟨hlabel, hblank, hleft⟩ => hnot ⟨hlabel, hblank, (hu.room 0).mp hleft⟩
  · exact fun ⟨hlabel, hblank, hleft⟩ => hnot ⟨hlabel, hblank, hroom hleft⟩

/-- A key that is stored joins those of the vault, and the batch goes on. -/
theorem Underway.stores
    (hu : Underway env w vault_id entry error first base c store stored known keys)
    (ideal : IdealAead env.primitives) (hjson : env.primitives.privateKeyJson.Lossless)
    (hdistinct : Function.Injective fun n => (w.key_world n).recordUuid.text)
    (hinspect : inspect_private_key_pem env.primitives private_key_pem = .ok inspection)
    {summary : KeySummary}
    (h : (with_store vault_id (importPrivateKey env.primitives (w.key_world stored)
      ⟨request.key_label, private_key_pem⟩)).run c = .ok summary d) :
    Storable first stored request private_key_pem ∧ ∃ store' keys',
      Underway env w vault_id entry error first base d store' (stored + 1)
        (inspection.public_key_openssh :: known) keys' ∧
      (∀ key ∈ keys, key ∈ keys') ∧
      (NoTwins base keys' ↔ NoTwins base keys ∧
        ∀ text ∈ known, key_material text ≠ key_material inspection.public_key_openssh) := by
  obtain ⟨_, _, _, after, hget, hrun, rfl⟩ := with_store_ok h
  cases hu.is_open.symm.trans hget
  obtain ⟨hlabel, hblank, hroom⟩ := importPrivateKey_ok hrun
  obtain ⟨key, r, hkey, hnew, hleft⟩ :=
    importPrivateKey_new ideal hjson hrun (hu.new_record stored (Nat.le_refl stored))
  have hlisted : listedKeys env.primitives { store with deviceStore := c.device_store } = .ok keys :=
    hu.listed
  obtain ⟨keys', hkeys', hjoined⟩ := hnew.listedKeys hlisted
  have htext : key.publicKeyOpenssh = inspection.public_key_openssh :=
    imported_public_key hinspect hkey
  have hlater : ∀ n, stored + 1 ≤ n →
      (w.key_world stored).recordUuid.text ≠ (w.key_world n).recordUuid.text := by
    intro n hn heq
    exact absurd (hdistinct heq) (Nat.ne_of_lt hn)
  refine ⟨⟨hlabel, hblank, (hu.room 0).mpr hroom⟩, at_rest after, keys', ⟨get_put_vault _ _ _,
    (SameRecords.listedKeys ⟨rfl, rfl, rfl⟩).trans hkeys', ?_, ?_, ?_, hu.new_base, ?_⟩,
    fun k hk => (hjoined k).mpr (.inr hk), ?_⟩
  · intro text
    rw [List.mem_cons, hu.known, List.mem_map, List.mem_map]
    constructor
    · rintro (rfl | ⟨k, hk, rfl⟩)
      · exact ⟨_, (hjoined _).mpr (.inl rfl), htext⟩
      · exact ⟨k, (hjoined k).mpr (.inr hk), rfl⟩
    · rintro ⟨k, hk, rfl⟩
      rcases (hjoined k).mp hk with rfl | hk
      · exact .inl htext
      · exact .inr ⟨k, hk, rfl⟩
  · intro n hn
    change after.conn.db.records.find? _ = none
    rw [hnew.rewrites.records, Table.find?_put, if_neg]
    · exact hu.new_record n (Nat.le_of_succ_le hn)
    · exact fun heq => hlater n hn (hnew.id.trans heq.symm)
  · intro n hn k hk
    rcases (hjoined k).mp hk with rfl | hk
    · exact hlater n hn
    · exact hu.new_key n (Nat.le_of_succ_le hn) k hk
  · intro more
    rw [Nat.add_right_comm, Nat.add_assoc, hu.room]
    exact (hleft more).symm
  · rw [noTwins_joined hjoined (hu.new_base stored) (hu.new_key stored (Nat.le_refl stored))]
    refine and_congr_right fun _ => ?_
    dsimp only
    rw [htext]
    constructor
    · intro h text hmem
      obtain ⟨k, hk, rfl⟩ := List.mem_map.mp ((hu.known text).mp hmem)
      exact h k hk
    · exact fun h k hk => h _ ((hu.known _).mpr (List.mem_map_of_mem hk))

/-- What a request asks for that can be read and inspected. -/
theorem noneRetold_cons (hread : w.read_to_string request.path = .ok private_key_pem)
    (hinspect : inspect_private_key_pem env.primitives private_key_pem = .ok inspection) :
    NoneRetold env w store stored known (request :: rest) ↔
      if inspection.public_key_openssh ∈ known then NoneRetold env w store stored known rest
      else Storable store stored request private_key_pem →
        (∀ text ∈ known, key_material text ≠ key_material inspection.public_key_openssh) ∧
          NoneRetold env w store (stored + 1) (inspection.public_key_openssh :: known) rest := by
  refine ⟨fun h => h private_key_pem inspection hread hinspect, fun h pem other hread' hinspect' => ?_⟩
  cases hread.symm.trans hread'
  cases hinspect.symm.trans hinspect'
  exact h

theorem settled_cons (hread : w.read_to_string request.path = .ok private_key_pem)
    (hinspect : inspect_private_key_pem env.primitives private_key_pem = .ok inspection) :
    Settled env w store known (request :: rest) ↔
      if inspection.public_key_openssh ∈ known then Settled env w store known rest
      else ¬ Storable store 0 request private_key_pem := by
  refine ⟨fun h => h private_key_pem inspection hread hinspect, fun h pem other hread' hinspect' => ?_⟩
  cases hread.symm.trans hread'
  cases hinspect.symm.trans hinspect'
  exact h

/-- What comes after a key is only put together with it. -/
theorem finalState_append (x : AppM (List VaultScopedKeySummary)) (first : VaultScopedKeySummary) :
    stateOf ((x >>= fun imported => pure (first :: imported)).run d) = finalState x d := by
  unfold finalState
  cases hrest : x.run d with
  | ok imported d' =>
    rw [run_bind_of_ok hrest]
    rfl
  | error e d' => rw [run_bind_of_error hrest]

/-- The loop over the requests, by what each of them comes to. -/
theorem import_each_ends (ideal : IdealAead env.primitives)
    (hjson : env.primitives.privateKeyJson.Lossless)
    (hdistinct : Function.Injective fun n => (w.key_world n).recordUuid.text) (vault_name : String)
    (hskip : ∀ request ∈ requests, request.skip_duplicate = true)
    (hu : Underway env w vault_id entry error first base c store stored known keys) :
    ∃ store' keys', Ends env w vault_id entry error first base keys stored known requests
      (finalState (import_each env w vault_id vault_name stored known requests) c) store' keys' := by
  induction requests generalizing c store stored known keys with
  | nil =>
    exact ⟨store, keys, hu.is_open, hu.listed, fun _ h => h, (and_iff_left trivial).symm, trivial⟩
  | cons request rest ih =>
    obtain ⟨hskips, hskip⟩ := List.forall_mem_cons.mp hskip
    unfold import_each finalState
    cases hread : (read_private_key w request.path).run c with
    | error e d =>
      rw [run_bind_of_error hread]
      obtain ⟨rfl, hunread⟩ := unread_error hread
      exact ⟨store, keys, hu.ends hu.is_open hu.listed
        fun private_key_pem _ hread _ => absurd hread (hunread private_key_pem)⟩
    | ok private_key_pem c' =>
    rw [run_bind_of_ok hread]
    obtain ⟨rfl, hpem⟩ := read_private_key_ok hread
    cases hinspection : (inspect_private_key env private_key_pem).run c with
    | error e d =>
      rw [run_bind_of_error hinspection]
      obtain ⟨rfl, huninspected⟩ := uninspected_error hinspection
      refine ⟨store, keys, hu.ends hu.is_open hu.listed fun pem inspection hpem' hinspect => ?_⟩
      cases hpem.symm.trans hpem'
      exact absurd hinspect (huninspected inspection)
    | ok inspection c' =>
    rw [run_bind_of_ok hinspection]
    obtain ⟨rfl, hinspect⟩ := inspect_private_key_ok hinspection
    by_cases hknown : inspection.public_key_openssh ∈ known
    · rw [if_pos ⟨hknown, hskips⟩]
      obtain ⟨store', keys', hends⟩ := ih hskip hu
      refine ⟨store', keys', hends.is_open, hends.listed, hends.grows, ?_, ?_⟩
      · rw [hends.twins, noneRetold_cons hpem hinspect, if_pos hknown]
      · obtain ⟨k, hk, htext⟩ := List.mem_map.mp ((hu.known _).mp hknown)
        rw [settled_cons hpem hinspect, if_pos (List.mem_map.mpr ⟨k, hends.grows k hk, htext⟩)]
        exact hends.settled
    · rw [if_neg fun h => hknown h.1]
      cases hstore : (with_store vault_id (importPrivateKey env.primitives (w.key_world stored)
          ⟨request.key_label, private_key_pem⟩)).run c with
      | error e d =>
        rw [run_bind_of_error hstore]
        obtain ⟨store', hopen, hlisted, hfirst, hlast⟩ := hu.refused ideal hinspect hstore
        refine ⟨store', keys, hu.ends hopen hlisted fun pem other hpem' hinspect' => ?_⟩
        cases hpem.symm.trans hpem'
        cases hinspect.symm.trans hinspect'
        exact ⟨hknown, hfirst, hlast⟩
      | ok summary d =>
        obtain ⟨hstorable, store₁, keys₁, hu₁, hgrows, htwins⟩ :=
          hu.stores ideal hjson hdistinct hinspect hstore
        obtain ⟨store', keys', hends⟩ := ih hskip hu₁
        rw [run_bind_of_ok hstore, finalState_append]
        refine ⟨store', keys', hends.is_open, hends.listed,
          fun k hk => hends.grows k (hgrows k hk), ?_, ?_⟩
        · rw [hends.twins, htwins, and_assoc, noneRetold_cons hpem hinspect, if_neg hknown,
            forall_prop_of_true hstorable]
        · obtain ⟨k, hk, htext⟩ := List.mem_map.mp ((hu₁.known _).mp List.mem_cons_self)
          rw [settled_cons hpem hinspect, if_pos (List.mem_map.mpr ⟨k, hends.grows k hk, htext⟩)]
          exact hends.settled

/-- A batch whose keys are known, up to the first request that fails, brings nothing. -/
theorem import_each_again (hget : c.vaults.get vault_id = some ⟨entry, some store, error⟩)
    (hskip : ∀ request ∈ requests, request.skip_duplicate = true)
    (hsettled : Settled env w store known requests) (vault_name : String) :
    BringsNothing env c vault_id
      ((import_each env w vault_id vault_name 0 known requests).run c) := by
  induction requests with
  | nil =>
    refine ⟨rfl, fun imported e h => ?_⟩
    cases h
    rfl
  | cons request rest ih =>
    obtain ⟨hskips, hskip⟩ := List.forall_mem_cons.mp hskip
    unfold import_each
    cases hread : (read_private_key w request.path).run c with
    | error e d =>
      rw [run_bind_of_error hread]
      obtain ⟨rfl, _⟩ := unread_error hread
      exact .of_error rfl
    | ok private_key_pem c' =>
    rw [run_bind_of_ok hread]
    obtain ⟨rfl, hpem⟩ := read_private_key_ok hread
    cases hinspection : (inspect_private_key env private_key_pem).run c with
    | error e d =>
      rw [run_bind_of_error hinspection]
      obtain ⟨rfl, _⟩ := uninspected_error hinspection
      exact .of_error rfl
    | ok inspection c' =>
    rw [run_bind_of_ok hinspection]
    obtain ⟨rfl, hinspect⟩ := inspect_private_key_ok hinspection
    rw [settled_cons hpem hinspect] at hsettled
    by_cases hknown : inspection.public_key_openssh ∈ known
    · rw [if_pos ⟨hknown, hskips⟩]
      rw [if_pos hknown] at hsettled
      exact ih hskip hsettled
    · rw [if_neg fun h => hknown h.1]
      rw [if_neg hknown] at hsettled
      cases hstore : (with_store vault_id (importPrivateKey env.primitives (w.key_world 0)
          ⟨request.key_label, private_key_pem⟩)).run c with
      | error e d =>
        rw [run_bind_of_error hstore]
        refine .of_error ?_
        rcases with_store_error hstore with ⟨rfl, _⟩ | ⟨_, _, _, _, after, hget', hrun, rfl⟩
        · rfl
        cases hget.symm.trans hget'
        obtain ⟨hsame, _⟩ := importPrivateKey_refused hrun
        have hlisted : listedKeys env.primitives (at_rest after) =
            listedKeys env.primitives store :=
          SameRecords.listedKeys ⟨hsame.masterKey, hsame.vaultId, hsame.records⟩
        unfold private_keys
        rw [get_put_vault, hget]
        change ((listedKeys env.primitives (at_rest after)).toOption).getD [] =
          ((listedKeys env.primitives store).toOption).getD []
        rw [hlisted]
      | ok summary d =>
        obtain ⟨_, _, _, after, hget', hrun, rfl⟩ := with_store_ok hstore
        cases hget.symm.trans hget'
        exact absurd (importPrivateKey_ok hrun) hsettled

theorem Settled.again {again : HandleWorld} (hreads : again.read_to_string = w.read_to_string)
    (h : Settled env w store known requests) : Settled env again store known requests := by
  induction requests with
  | nil => trivial
  | cons request rest ih =>
    intro private_key_pem inspection hread hinspect
    have hrest := h private_key_pem inspection (hreads ▸ hread) hinspect
    split at hrest
    · rename_i hknown
      rw [if_pos hknown]
      exact ih hrest
    · rename_i hknown
      rw [if_neg hknown]
      exact hrest

end Loop

/-- A batch that does not come to its loop changes nothing, however often it is run. -/
theorem unopened_deduplicates
    (h : ∀ w : HandleWorld, ∃ e, (import_private_keys_from_paths env w vault_id requests).run c =
      .error e c) : Deduplicates env w c vault_id requests := by
  obtain ⟨e, he⟩ := h w
  unfold Deduplicates finalState
  rw [he]
  refine ⟨.refl _, fun again _ => ?_⟩
  obtain ⟨e', he'⟩ := h again
  change BringsNothing env c vault_id
    ((import_private_keys_from_paths env again vault_id requests).run c)
  rw [he']
  exact .of_error rfl

/-- The loop of a batch on a vault whose keys can be listed. -/
theorem import_private_keys_run (hget : c.vaults.get vault_id = some ⟨entry, some store, error⟩)
    (hkeys : listedKeys env.primitives store = .ok keys) :
    (import_private_keys_from_paths env w vault_id requests).run c =
      (import_each env w vault_id entry.name 0 (keys.map VaultPrivateKey.publicKeyOpenssh)
        requests).run c := by
  have hstate : (vault_state vault_id).run c = .ok ⟨entry, some store, error⟩ c :=
    run_query_of_ok (by rw [hget])
  have hread : (read_store vault_id (known_public_keys env)).run c =
      .ok (keys.map VaultPrivateKey.publicKeyOpenssh) c := by
    refine run_query_of_ok ?_
    rw [hget]
    simp only [Option.bind_some, known_public_keys_eq, hkeys, Except.map]
  unfold import_private_keys_from_paths
  rw [run_bind_of_ok hstate, run_bind_of_ok hread]

/-- A vault that is open and lists its keys is the start of a batch. -/
theorem Underway.start (hfresh : FreshIds env w c vault_id)
    (hget : c.vaults.get vault_id = some ⟨entry, some store, error⟩)
    (hkeys : listedKeys env.primitives store = .ok keys) :
    Underway env w vault_id entry error store keys c store 0
      (keys.map VaultPrivateKey.publicKeyOpenssh) keys := by
  have hnew : ∀ n, ∀ key ∈ keys, key.id ≠ (w.key_world n).recordUuid.text := by
    intro n key hkey
    rw [← private_keys_open hget hkeys] at hkey
    exact hfresh.no_key key hkey n
  exact ⟨hget, hkeys, fun _ => Iff.rfl, fun n _ => hfresh.no_record entry store error hget n,
    fun n _ => hnew n, hnew, fun more => by rw [Nat.zero_add]⟩

/-- A batch on a vault that lists its keys. -/
theorem deduplicates_open (ideal : IdealAead env.primitives)
    (hjson : env.primitives.privateKeyJson.Lossless) (hfresh : FreshIds env w c vault_id)
    (hskip : ∀ request ∈ requests, request.skip_duplicate = true)
    (hget : c.vaults.get vault_id = some ⟨entry, some store, error⟩)
    (hkeys : listedKeys env.primitives store = .ok keys) :
    Deduplicates env w c vault_id requests ↔
      NoneRetold env w store 0 (keys.map VaultPrivateKey.publicKeyOpenssh) requests := by
  obtain ⟨store', keys', hends⟩ := import_each_ends ideal hjson hfresh.distinct entry.name hskip
    (Underway.start hfresh hget hkeys)
  have hlast : finalState (import_private_keys_from_paths env w vault_id requests) c =
      finalState (import_each env w vault_id entry.name 0
        (keys.map VaultPrivateKey.publicKeyOpenssh) requests) c := by
    unfold finalState
    rw [import_private_keys_run hget hkeys]
  unfold Deduplicates
  dsimp only
  rw [hlast, private_keys_open hget hkeys, private_keys_open hends.is_open hends.listed, hends.twins]
  refine ⟨fun h => h.1.2, fun h => ⟨⟨.refl keys, h⟩, fun again hreads => ?_⟩⟩
  rw [import_private_keys_run hends.is_open hends.listed]
  exact import_each_again hends.is_open hskip (hends.settled.again hreads) entry.name

/-- Without a list of its keys the vault takes no batch. -/
theorem import_private_keys_unlisted (w : HandleWorld)
    (h : ∀ entry store error keys, c.vaults.get vault_id = some ⟨entry, some store, error⟩ →
      listedKeys env.primitives store ≠ .ok keys) :
    ∃ e, (import_private_keys_from_paths env w vault_id requests).run c = .error e c := by
  unfold import_private_keys_from_paths
  cases hstate : (vault_state vault_id).run c with
  | error e d =>
    rw [run_bind_of_error hstate, (vault_state_error hstate).1]
    exact ⟨e, rfl⟩
  | ok state d =>
  rw [run_bind_of_ok hstate]
  obtain ⟨rfl, _⟩ := vault_state_ok hstate
  cases hread : (read_store vault_id (known_public_keys env)).run c with
  | error e d =>
    rw [run_bind_of_error hread, (read_store_error hread).1]
    exact ⟨e, rfl⟩
  | ok known d =>
    obtain ⟨_, ⟨entry, _, error⟩, store, hget, rfl, hknown⟩ := read_store_ok hread
    obtain ⟨keys, hkeys⟩ := listed_of_known hknown
    exact absurd hkeys (h entry store error keys hget)

/-- A batch brings no key twice exactly if it stores none that is known under another text. -/
theorem batch_import_deduplicates_iff (ideal : IdealAead env.primitives)
    (hjson : env.primitives.privateKeyJson.Lossless) (hfresh : FreshIds env w c vault_id)
    (hskip : ∀ request ∈ requests, request.skip_duplicate = true) :
    Deduplicates env w c vault_id requests ↔ RetellsNone env w c vault_id requests := by
  by_cases hlisted : ∃ entry store error keys,
    c.vaults.get vault_id = some ⟨entry, some store, error⟩ ∧
      listedKeys env.primitives store = .ok keys
  · obtain ⟨entry, store, error, keys, hget, hkeys⟩ := hlisted
    have hknown : known_public_keys env store = .ok (keys.map VaultPrivateKey.publicKeyOpenssh) := by
      rw [known_public_keys_eq, hkeys]
      rfl
    rw [deduplicates_open ideal hjson hfresh hskip hget hkeys]
    constructor
    · intro h _ _ _ _ hget' hknown'
      cases hget.symm.trans hget'
      cases hknown.symm.trans hknown'
      exact h
    · exact fun h => h entry store error _ hget hknown
  · have hunlisted : ∀ entry store error keys,
        c.vaults.get vault_id = some ⟨entry, some store, error⟩ →
        listedKeys env.primitives store ≠ .ok keys :=
      fun entry store error keys hget hkeys => hlisted ⟨entry, store, error, keys, hget, hkeys⟩
    refine iff_of_true (unopened_deduplicates fun w => import_private_keys_unlisted w hunlisted) ?_
    intro entry store error known hget hknown
    obtain ⟨keys, hkeys⟩ := listed_of_known hknown
    exact absurd hkeys (hunlisted entry store error keys hget)

namespace Sample

/-- Three files: a key, a copy of it, and the same key with another comment. -/
def key_files (path : UnixPath) : Except IoError String :=
  if path = [1] ∨ path = [2] then .ok "alice's key"
  else if path = [3] then .ok "alice's key, told anew"
  else .error ⟨"No such file or directory (os error 2)"⟩

def from_openssh (private_key_pem : String) : Except String SshPrivateKey :=
  if private_key_pem = "alice's key" then .ok ⟨.ed25519, .ok "ssh-ed25519 AAAA alice", false⟩
  else if private_key_pem = "alice's key, told anew" then
    .ok ⟨.ed25519, .ok "ssh-ed25519 AAAA alice@desk", false⟩
  else .error "unknown key"

def keyed : AppEnv := ⟨platform, toml, { Vault.Sample.primitives with
  privateKeyJson := Vault.Sample.jsonOf Vault.Sample.privateKeyCode
  fromOpenssh := from_openssh }⟩

theorem keyed_ideal : IdealAead keyed.primitives :=
  ⟨Vault.Sample.ideal_aead.seals, Vault.Sample.ideal_aead.opens, Vault.Sample.ideal_aead.only⟩

/-- A row of as many letters as keys have been stored, and one more. -/
def key_id (stored : Nat) : Uuid where
  text := String.ofList (List.replicate (stored + 1) 'k')
  nonempty h := by
    have hlist := congrArg String.toList h
    rw [String.toList_ofList] at hlist
    cases hlist

theorem key_id_injective : Function.Injective fun n => (key_id n).text := by
  intro m n h
  have hlength := congrArg (fun s => s.toList.length) h
  simp only [key_id, String.toList_ofList, List.length_replicate] at hlength
  omega

def key_world : HandleWorld :=
  { handle_world with
    read_to_string := key_files
    key_world := fun n => { Vault.Sample.world (UInt8.ofNat n) with recordUuid := key_id n } }

/-- The vault without records, unlocked. -/
def unlocked_store : VaultStore :=
  { Vault.Sample.store with masterKey := some (Vault.Sample.key 1) }

def unlocked : AppController :=
  { controller with vaults := Map.insert .empty "vault-a" ⟨work, some unlocked_store, none⟩ }

theorem unlocked_get : unlocked.vaults.get "vault-a" = some ⟨work, some unlocked_store, none⟩ := rfl

theorem unlocked_keys : listedKeys keyed.primitives unlocked_store = .ok [] := rfl

theorem unlocked_fresh : FreshIds keyed key_world unlocked "vault-a" where
  distinct := key_id_injective
  no_record _ _ _ hget n := by
    cases unlocked_get.symm.trans hget
    rfl
  no_key key hkey := by
    rw [private_keys_open unlocked_get unlocked_keys] at hkey
    cases hkey

def import_of (path : UnixPath) : ImportPrivateKeyFromPathRequest := ⟨path, some "alice", true⟩

theorem inspected_of {private_key_pem comment : String}
    (h : from_openssh private_key_pem = .ok ⟨.ed25519, .ok comment, false⟩) :
    inspect_private_key_pem keyed.primitives private_key_pem = .ok ⟨.ed25519, comment, false⟩ := by
  change (sshResult (from_openssh private_key_pem) >>= _) = _
  rw [h]
  rfl

theorem inspected :
    inspect_private_key_pem keyed.primitives "alice's key" =
      .ok ⟨.ed25519, "ssh-ed25519 AAAA alice", false⟩ :=
  inspected_of (if_pos rfl)

theorem inspected_anew :
    inspect_private_key_pem keyed.primitives "alice's key, told anew" =
      .ok ⟨.ed25519, "ssh-ed25519 AAAA alice@desk", false⟩ :=
  inspected_of ((if_neg (by decide)).trans (if_pos rfl))

end Sample

/-- A key and its copy: the copy is told by its text, and left. -/
theorem batch_import_copies :
    Deduplicates Sample.keyed Sample.key_world Sample.unlocked "vault-a"
      [Sample.import_of [1], Sample.import_of [2]] := by
  refine (batch_import_deduplicates_iff Sample.keyed_ideal (Vault.Sample.jsonOf_lossless _)
    Sample.unlocked_fresh (by decide)).mpr ?_
  intro entry store error known hget hknown
  cases Sample.unlocked_get.symm.trans hget
  cases hknown
  rw [noneRetold_cons rfl Sample.inspected, if_neg (by decide), noneRetold_cons rfl Sample.inspected,
    if_pos (by decide)]
  exact fun _ => ⟨nofun, trivial⟩

/-- One key in two files under two comments is stored twice. -/
theorem comment_retells :
    ¬ Deduplicates Sample.keyed Sample.key_world Sample.unlocked "vault-a"
      [Sample.import_of [1], Sample.import_of [3]] := by
  rw [deduplicates_open Sample.keyed_ideal (Vault.Sample.jsonOf_lossless _) Sample.unlocked_fresh
    (by decide) Sample.unlocked_get Sample.unlocked_keys]
  intro h
  rw [noneRetold_cons rfl Sample.inspected, if_neg (by decide),
    noneRetold_cons rfl Sample.inspected_anew, if_neg (by decide)] at h
  have hroom : Room Sample.unlocked_store 1 := ⟨rfl, rfl, _, rfl, by decide⟩
  have hfirst : Room Sample.unlocked_store 0 := ⟨rfl, rfl, _, rfl, by decide⟩
  obtain ⟨_, hsecond⟩ := h ⟨by decide, by decide, hfirst⟩
  obtain ⟨hmaterial, _⟩ := hsecond ⟨by decide, by decide, hroom⟩
  exact hmaterial _ List.mem_cons_self (by decide +kernel)

end Seance.Core
