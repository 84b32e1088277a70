import Seance.Lib.Paging
import Seance.Sync.Stream

namespace Seance.Sync
open Lib

variable {J : Type} {s t : Server J} {vaultId : String}

theorem Consistent.commitsOf_of_none (h : Consistent s)
    (hv : s.db.vaults.find? vaultId = none) : s.db.commitsOf vaultId = [] := by
  rw [List.eq_nil_iff_forall_not_mem]
  intro c hc
  obtain ⟨hc, hid⟩ := Database.mem_commitsOf.mp hc
  obtain ⟨v, hhome⟩ := h.home c hc
  rw [hid, hv] at hhome
  cases hhome

/-- The commits of a vault are stored in the order of their numbers. -/
theorem Consistent.sorted (h : Consistent s) (vaultId : String) :
    (s.db.commitsOf vaultId).Pairwise (fun a b => a.streamSeq < b.streamSeq) := by
  cases hv : s.db.vaults.find? vaultId with
  | some v =>
    have hstream := h.stream v (Table.mem_of_find? hv)
    rw [Table.find?_key hv] at hstream
    rw [← List.pairwise_map, hstream, List.pairwise_map]
    refine List.pairwise_lt_range.imp ?_
    intro a b hab
    omega
  | none =>
    rw [h.commitsOf_of_none hv]
    exact .nil

/-- The query of a pull is a page of the vault's commits. -/
theorem Consistent.commitsAfterSeq (h : Consistent s) (vaultId : String) (afterSeq limit : Int) :
    s.db.commitsAfterSeq vaultId afterSeq limit =
      page VaultCommitRow.streamSeq (s.db.commitsOf vaultId) afterSeq limit.toNat := by
  have hrows : s.db.commits.rows.filter (fun c => c.vaultId = vaultId ∧ afterSeq < c.streamSeq) =
      beyond VaultCommitRow.streamSeq (s.db.commitsOf vaultId) afterSeq := by
    unfold beyond Database.commitsOf
    rw [List.filter_filter]
    refine List.filter_congr ?_
    intro c _
    rw [← Bool.decide_and]
    exact decide_eq_decide.mpr And.comm
  have hsorted := (h.sorted vaultId).sublist
    (List.filter_sublist (p := fun c => afterSeq < c.streamSeq))
  have horder : orderBy (compareOn VaultCommitRow.streamSeq)
      (beyond VaultCommitRow.streamSeq (s.db.commitsOf vaultId) afterSeq) =
      beyond VaultCommitRow.streamSeq (s.db.commitsOf vaultId) afterSeq := by
    refine List.Pairwise.insertionSort_eq (hsorted.imp ?_)
    intro a b hab
    exact Std.isLE_compare.mpr (Int.le_of_lt hab)
  rw [Database.commitsAfterSeq, hrows, horder, page]

theorem Grows.commitsOf (h : Grows s t) (vaultId : String) :
    s.db.commitsOf vaultId <+: t.db.commitsOf vaultId := h.commits.filter _

theorem nextAfterSeq_eq (rows : List VaultCommitRow) (afterSeq : Int) :
    nextAfterSeq rows afterSeq = advanced VaultCommitRow.streamSeq rows afterSeq := by
  unfold nextAfterSeq advanced
  cases rows.getLast? with
  | none => rfl
  | some row => rfl

theorem map_some_of_loaded {rows : List VaultCommitRow} {envelopes : List (CommitEnvelope J)}
    (h : List.Forall₂ (fun c e => envelopeOf s c = some e) rows envelopes) :
    envelopes.map some = rows.map (envelopeOf s) := by
  induction h with
  | nil => rfl
  | cons he _ ih => rw [List.map_cons, List.map_cons, he, ih]

theorem streamSeq_of_loaded {rows : List VaultCommitRow} {envelopes : List (CommitEnvelope J)}
    (h : envelopes.map some = rows.map (envelopeOf s)) :
    envelopes.map CommitEnvelope.streamSeq = rows.map VaultCommitRow.streamSeq := by
  induction rows generalizing envelopes with
  | nil => rw [List.map_eq_nil_iff.mp h]; rfl
  | cons c rows ih =>
    obtain ⟨e, rest, rfl, he, hrest⟩ := List.map_eq_cons_iff.mp h
    obtain ⟨b, _, rfl⟩ := Option.map_eq_some_iff.mp he.symm
    rw [List.map_cons, List.map_cons, ih hrest]

/-- What a client has got of a vault's commits that pulls again and again, each time from the
cursor of the answer before. -/
inductive Pulls (p : ServerPool J) (vaultId : String) (start : Int) :
    List (CommitEnvelope J) → Int → Prop where
  | none : Pulls p vaultId start [] start
  | more {delivered : List (CommitEnvelope J)} {cursor : Int} {i : Nat} {userId : String}
      {afterSeq limit : Option Int} {envelopes : List (CommitEnvelope J)} {next head clock : Int}
      (h : Pulls p vaultId start delivered cursor)
      (hr : p.request i = some (.pullCommits userId vaultId afterSeq limit))
      (hafter : afterSeq.getD 0 = cursor)
      (ha : p.reply i = some (.commits envelopes next head clock)) :
      Pulls p vaultId start (delivered ++ envelopes) next

section Runs

variable {P : Platform J} {users : Table UserRow.userId} {turns : List (Turn (Request J))}

/-- An answered pull goes back to the turn of the run that answered its query. -/
theorem answered_page {i : Nat} {userId : String} {afterSeq limit : Option Int}
    {envelopes : List (CommitEnvelope J)} {next head clock : Int}
    (hr : (serverAfter P users turns).request i =
      some (.pullCommits userId vaultId afterSeq limit))
    (ha : (serverAfter P users turns).reply i = some (.commits envelopes next head clock)) :
    ∃ before later, turns = before ++ .serve i .intact :: later ∧
      (serverAfter P users before).awaiting i =
        some (.selectCommitsAfterSeq vaultId (afterSeq.getD 0) (pageLimit limit)) ∧
      envelopes.map some =
        (page VaultCommitRow.streamSeq ((serverAfter P users before).shared.db.commitsOf vaultId)
          (afterSeq.getD 0) (pageLimit limit).toNat).map
            (envelopeOf (serverAfter P users turns).shared) ∧
      next = advanced VaultCommitRow.streamSeq
        (page VaultCommitRow.streamSeq ((serverAfter P users before).shared.db.commitsOf vaultId)
          (afterSeq.getD 0) (pageLimit limit).toNat) (afterSeq.getD 0) := by
  have hsettled : Settled (anyTerms.during (syncService P) (Service.fresh (Server.empty users))
      turns) := ⟨fun _ _ _ _ _ h => h, fun _ _ _ => trivial, fun _ _ _ _ _ _ _ => trivial⟩
  have hpage := (sound_serverAfter hsettled (Meets.during (along_anyTerms _))).answered hr ha
  cases hpage with
  | page u _ _ _ _ hinv hlegal hload =>
    obtain ⟨_, before, later, he, _, hop, rfl⟩ := hlegal
    rw [hinv.commitsAfterSeq] at hload ⊢
    exact ⟨before, later, he, hop, map_some_of_loaded hload, nextAfterSeq_eq _ _⟩

theorem commitsOf_before {before later : List (Turn (Request J))} {turn : Turn (Request J)}
    (he : turns = before ++ turn :: later) (vaultId : String) :
    (serverAfter P users before).shared.db.commitsOf vaultId <+:
      (serverAfter P users turns).shared.db.commitsOf vaultId :=
  he ▸ (grows_serverAfter _).commitsOf vaultId

theorem Pulls.pages {start cursor : Int} {delivered : List (CommitEnvelope J)}
    (h : Pulls (serverAfter P users turns) vaultId start delivered cursor) :
    ∃ rows, delivered.map some = rows.map (envelopeOf (serverAfter P users turns).shared) ∧
      Pages VaultCommitRow.streamSeq
        ((serverAfter P users turns).shared.db.commitsOf vaultId) start rows cursor := by
  induction h with
  | none => exact ⟨[], rfl, .none⟩
  | more _ hr hafter ha ih =>
    obtain ⟨rows, hrows, hpages⟩ := ih
    obtain ⟨before, later, he, _, hload, hnext⟩ := answered_page hr ha
    rw [hafter] at hload hnext
    subst hnext
    refine ⟨rows ++ _, ?_, .more hpages (commitsOf_before he vaultId)⟩
    rw [List.map_append, List.map_append, hrows, hload]

end Runs

section Numbers

theorem beyond_map_range {start : Int} (hstart : 0 ≤ start) (n : Nat) :
    ((List.range n).map (fun m : Nat => (m : Int) + 1)).filter (fun k => start < k) =
      (List.range (n - start.toNat)).map (fun m : Nat => start + 1 + m) := by
  induction n with
  | zero => simp
  | succ n ih =>
    rw [List.range_succ, List.map_append, List.filter_append, ih, List.map_singleton,
      List.filter_singleton]
    by_cases hn : start < (n : Int) + 1
    · have hlast : start + 1 + ((n - start.toNat : Nat) : Int) = (n : Int) + 1 := by omega
      have hnat : n + 1 - start.toNat = (n - start.toNat) + 1 := by omega
      rw [hnat, List.range_succ, List.map_append, List.map_singleton, hlast]
      simp [hn]
    · have hnat : n + 1 - start.toNat = n - start.toNat := by omega
      rw [hnat]
      simp [hn]

theorem eq_map_range_of_prefix {α : Type} {l : List α} {n : Nat} {f : Nat → α}
    (h : l <+: (List.range n).map f) : l = (List.range l.length).map f := by
  have hle : l.length ≤ n := by simpa using h.length_le
  have htake := List.prefix_iff_eq_take.mp h
  rwa [← List.map_take, List.take_range, Nat.min_eq_left hle] at htake

/-- The numbers beyond a cursor follow it without a gap. -/
theorem Consistent.beyond_numbers (h : Consistent s) (vaultId : String) {start : Int}
    (hstart : 0 ≤ start) : ∃ n, (beyond VaultCommitRow.streamSeq (s.db.commitsOf vaultId)
      start).map VaultCommitRow.streamSeq =
        (List.range n).map (fun m : Nat => start + 1 + m) := by
  cases hv : s.db.vaults.find? vaultId with
  | some v =>
    have hstream := h.stream v (Table.mem_of_find? hv)
    rw [Table.find?_key hv] at hstream
    exact ⟨_, by rw [map_beyond, hstream, beyond_map_range hstart]⟩
  | none => exact ⟨0, by rw [h.commitsOf_of_none hv]; rfl⟩

end Numbers

/-- Paged pulls are exact. What a client has got at any time is the front of the commits
accepted beyond its start, numbered without a gap; and when a page was empty, all commits
accepted at the turn that answered its query are among them. -/
theorem paged_pull_exact (P : Platform J) (users : Table UserRow.userId)
    (turns : List (Turn (Request J))) (vaultId : String) (start cursor : Int)
    (delivered : List (CommitEnvelope J))
    (h : Pulls (serverAfter P users turns) vaultId start delivered cursor) :
    delivered.map some <+:
      (((serverAfter P users turns).shared.db.commitsOf vaultId).filter
        (fun c => start < c.streamSeq)).map (envelopeOf (serverAfter P users turns).shared) ∧
    (0 ≤ start → delivered.map CommitEnvelope.streamSeq =
      (List.range delivered.length).map (fun n : Nat => start + 1 + n)) ∧
    ∀ i userId afterSeq limit next head clock,
      (serverAfter P users turns).request i =
        some (.pullCommits userId vaultId afterSeq limit) →
      afterSeq.getD 0 = cursor →
      (serverAfter P users turns).reply i = some (.commits [] next head clock) →
      ∃ before later, turns = before ++ .serve i .intact :: later ∧
        (serverAfter P users before).awaiting i =
          some (.selectCommitsAfterSeq vaultId cursor (pageLimit limit)) ∧
        ∀ c ∈ (serverAfter P users before).shared.db.commitsOf vaultId, start < c.streamSeq →
          ∃ e ∈ delivered, envelopeOf (serverAfter P users turns).shared c = some e := by
  have hinv : Consistent (serverAfter P users turns).shared := consistent_serverAfter
  obtain ⟨rows, hrows, hpages⟩ := h.pages
  have hbeyond := hpages.beyond_eq (hinv.sorted vaultId)
  refine ⟨?_, ?_, ?_⟩
  · rw [hrows]
    exact (hbeyond ▸ List.prefix_append rows _).map _
  · intro hstart
    obtain ⟨n, hn⟩ := hinv.beyond_numbers vaultId hstart
    rw [hbeyond, List.map_append, ← streamSeq_of_loaded hrows] at hn
    have hfront := eq_map_range_of_prefix (hn ▸ List.prefix_append _ _)
    rwa [List.length_map] at hfront
  · intro i userId afterSeq limit next head clock hr hafter ha
    obtain ⟨before, later, he, hop, hload, _⟩ := answered_page hr ha
    rw [hafter] at hop hload
    refine ⟨before, later, he, hop, ?_⟩
    have hlimit : 0 < (pageLimit limit).toNat := by
      have hone : 1 ≤ pageLimit limit := Int.le_max_left _ _
      omega
    have hempty := (page_eq_nil hlimit).mp (List.map_eq_nil_iff.mp hload.symm)
    intro c hc hlt
    have hgot := hpages.complete (hinv.sorted vaultId) (commitsOf_before he vaultId) hempty
      (mem_beyond.mpr ⟨hc, hlt⟩)
    have hsome : envelopeOf (serverAfter P users turns).shared c ∈ delivered.map some :=
      hrows ▸ List.mem_map_of_mem hgot
    obtain ⟨e, hmem, he⟩ := List.mem_map.mp hsome
    exact ⟨e, hmem, he.symm⟩

section Example
open Sample

/-- Two commits, and two pulls of one commit each, the first one before the second commit. -/
def twoPages : List (Turn (Request Unit)) :=
  created ++ (.arrive (commit "a" 5) :: turns 1 5) ++
    (.arrive (.pullCommits "u" "v" none (some 1)) :: turns 2 4) ++
    (.arrive (commit "b" 6) :: turns 3 5) ++
    (.arrive (.pullCommits "u" "v" (some 1) (some 1)) :: turns 4 4)

def pulled (i : Nat) (streamSeq toClock : Int) : CommitEnvelope Unit :=
  ⟨streamSeq, platform.randomUUID i, "device", i, .delta (uploadOf "" toClock).delta⟩

theorem paged_pull_exact_twoPages :
    Pulls (serverAfter platform users twoPages) "v" 0 [pulled 1 1 5, pulled 3 2 6] 2 ∧
    [pulled 1 1 5, pulled 3 2 6].map some <+:
      (((serverAfter platform users twoPages).shared.db.commitsOf "v").filter
        (fun c => 0 < c.streamSeq)).map
          (envelopeOf (serverAfter platform users twoPages).shared) := by
  have hr : (serverAfter platform users twoPages).request 2 =
      some (.pullCommits "u" "v" none (some 1)) := by decide +kernel
  have ha : (serverAfter platform users twoPages).reply 2 =
      some (.commits [pulled 1 1 5] 1 1 5) := by decide +kernel
  have hr' : (serverAfter platform users twoPages).request 4 =
      some (.pullCommits "u" "v" (some 1) (some 1)) := by decide +kernel
  have ha' : (serverAfter platform users twoPages).reply 4 =
      some (.commits [pulled 3 2 6] 2 2 6) := by decide +kernel
  have h : Pulls (serverAfter platform users twoPages) "v" 0
      ([] ++ [pulled 1 1 5] ++ [pulled 3 2 6]) 2 :=
    .more (.more .none hr rfl ha) hr' rfl ha'
  exact ⟨h, (paged_pull_exact platform users twoPages "v" 0 2 _ h).1⟩

end Example

end Seance.Sync
