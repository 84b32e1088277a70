import Seance.Ui.Drafts

namespace Seance.Ui
open Lib Vault Seance.Core

namespace HostDraftState

variable (draft : HostDraftState)

def serials : List Nat := draft.auth_items.map AuthItem.serial

/-- `selected_auth`, with the item that was chosen. -/
def selected : Mark Nat := ⟨draft.selected_auth, draft.chosen⟩

/-- What the auth operations are about: which items there are, and which is selected. -/
def marks : List Nat × Mark Nat := (draft.serials, draft.selected)

theorem length_serials : draft.serials.length = draft.auth_items.length := List.length_map ..

theorem serials_select (index : Nat) : (draft.select index).serials = draft.serials := rfl

theorem selected_select (index : Nat) :
    (draft.select index).selected = ⟨some index, draft.serials[index]?⟩ := by
  rw [serials, List.getElem?_map]
  rfl

theorem serials_push_auth (item : AuthItem) :
    (draft.push_auth item).serials = draft.serials ++ [item.serial] := List.map_append

theorem selected_push_auth (item : AuthItem) : (draft.push_auth item).selected =
    ⟨some draft.serials.length, (draft.serials ++ [item.serial])[draft.serials.length]?⟩ := by
  have hlast : (draft.auth_items ++ [item]).length - 1 = draft.serials.length := by
    rw [List.length_append, List.length_singleton, Nat.add_sub_cancel, length_serials]
  rw [← serials_push_auth]
  unfold push_auth
  dsimp only
  rw [hlast]
  exact selected_select { draft with auth_items := draft.auth_items ++ [item] } _

theorem serials_set_passphrase (index : Nat) (credential_id : Option String) :
    (draft.set_passphrase index credential_id).serials = draft.serials := by
  have hserial : ∀ item : AuthItem, (item.with_passphrase credential_id).serial = item.serial := by
    intro item
    unfold AuthItem.with_passphrase
    split <;> rfl
  unfold serials set_passphrase
  apply List.ext_getElem?
  intro i
  rw [List.getElem?_map, List.getElem?_map, List.getElem?_modify]
  cases draft.auth_items[i]? with
  | none => rfl
  | some item =>
    split
    · exact congrArg some (hserial item)
    · rfl

theorem marks_set_auth_passphrase (index : Nat) (credential_id : Option String) :
    (draft.set_auth_passphrase_credential index credential_id).marks = draft.marks := by
  unfold set_auth_passphrase_credential
  split
  · exact Prod.ext (draft.serials_set_passphrase index credential_id) rfl
  · rfl

theorem marks_edit (field : HostDraftField) (text : String) :
    (draft.edit field text).marks = draft.marks := by cases field <;> rfl

theorem remove_in_range {index : Nat} (h : index < draft.auth_items.length) :
    (draft.remove_auth_item index).serials = draft.serials.eraseIdx index ∧
      (draft.remove_auth_item index).selected =
        ⟨Mark.clamped draft.selected_auth (draft.serials.eraseIdx index), draft.chosen⟩ := by
  have hserials : (draft.auth_items.eraseIdx index).map AuthItem.serial =
      draft.serials.eraseIdx index := (List.eraseIdx_map _ _ _).symm
  unfold remove_auth_item
  rw [if_neg (Nat.not_le.mpr h)]
  refine ⟨hserials, ?_⟩
  rw [← hserials]
  unfold selected Mark.clamped
  dsimp only
  rw [List.length_map, List.isEmpty_map]

theorem move_in_range {index : Nat} {direction : Int} (h : index < draft.auth_items.length)
    (htarget : move_target index direction < draft.auth_items.length) :
    (draft.move_auth_item index direction).serials =
        swap draft.serials index (move_target index direction) ∧
      (draft.move_auth_item index direction).selected = ⟨some (move_target index direction),
        (swap draft.serials index (move_target index direction))[move_target index direction]?⟩ := by
  have hserials : (swap draft.auth_items index (move_target index direction)).map AuthItem.serial =
      swap (draft.auth_items.map AuthItem.serial) index (move_target index direction) :=
    map_swap AuthItem.serial
  unfold move_auth_item
  dsimp only
  rw [if_neg (by omega)]
  refine ⟨hserials, ?_⟩
  change _ = Mark.mk _ (swap (draft.auth_items.map AuthItem.serial) _ _)[_]?
  rw [← hserials, List.getElem?_map]
  rfl

theorem out_of_range {index : Nat} (h : draft.auth_items.length ≤ index) :
    draft.remove_auth_item index = draft := if_pos h

theorem move_out_of_range {index : Nat} {direction : Int}
    (h : ¬(index < draft.auth_items.length ∧
      move_target index direction < draft.auth_items.length)) :
    draft.move_auth_item index direction = draft := if_pos (by omega)

end HostDraftState

namespace SecureWorkspace

/-- `pending_passphrase_auth_index`, with the item that it was set for. -/
def pending (w : SecureWorkspace) : Mark Nat :=
  ⟨w.pending_passphrase_auth_index, w.ledger.requested⟩

/-- The two indices of the host draft designate the items they were set for, as long as these are
there, and no passphrase went to an item it was not asked for. -/
structure Designates (w : SecureWorkspace) : Prop where
  selected : ∀ draft ∈ w.host_draft, draft.selected.Follows draft.serials
  pending : ∀ draft ∈ w.host_draft, w.pending.Follows draft.serials
  answered : ∀ answer ∈ w.ledger.answered, answer.1 = some answer.2

/-- The serials tell the items apart and are not used again. -/
structure Numbered (w : SecureWorkspace) : Prop where
  opened : ∀ draft ∈ w.host_draft, draft.number < w.ledger.opened
  distinct : ∀ draft ∈ w.host_draft, draft.serials.Nodup
  added : ∀ draft ∈ w.host_draft, ∀ serial ∈ draft.serials, serial < w.ledger.added
  chosen : ∀ draft ∈ w.host_draft, ∀ serial ∈ draft.chosen, serial < w.ledger.added
  requested : ∀ serial ∈ w.ledger.requested, serial < w.ledger.added

/-- Nothing happens to the items, and at most the pending index is given up. -/
structure Framed (w w' : SecureWorkspace) : Prop where
  marks : w'.host_draft.map HostDraftState.marks = w.host_draft.map HostDraftState.marks
  slots : w'.slots.holds .host = w.slots.holds .host
  pending : w'.pending_passphrase_auth_index = w.pending_passphrase_auth_index ∨
    w'.pending_passphrase_auth_index = none
  requested : w'.ledger.requested = w.ledger.requested
  answered : w'.ledger.answered = w.ledger.answered
  opened : w.ledger.opened ≤ w'.ledger.opened
  added : w.ledger.added ≤ w'.ledger.added

section Framed

variable {w w' w'' : SecureWorkspace}

theorem Framed.refl : Framed w w :=
  ⟨rfl, rfl, .inl rfl, rfl, rfl, Nat.le_refl _, Nat.le_refl _⟩

theorem Framed.trans (h : Framed w w') (h' : Framed w' w'') : Framed w w'' where
  marks := h'.marks.trans h.marks
  slots := h'.slots.trans h.slots
  pending := by
    rcases h'.pending with hsame | hnone
    · rw [hsame]
      exact h.pending
    · exact .inr hnone
  requested := h'.requested.trans h.requested
  answered := h'.answered.trans h.answered
  opened := h.opened.trans h'.opened
  added := h.added.trans h'.added

/-- What is done to the draft otherwise leaves its items alone. -/
theorem framed_map_host {f : HostDraftState → HostDraftState}
    (hmarks : ∀ draft, (f draft).marks = draft.marks)
    (hnumber : ∀ draft, (f draft).number = draft.number) :
    Framed w { w with host_draft := w.host_draft.map f } where
  marks := by
    rw [Option.map_map]
    exact congrArg (w.host_draft.map ·) (funext hmarks)
  slots := congrFun (congrArg Slots.holds (slots_map_host hnumber)) _
  pending := .inl rfl
  requested := rfl
  answered := rfl
  opened := Nat.le_refl _
  added := Nat.le_refl _

/-- The draft that a draft of the framed workspace comes from. -/
theorem Framed.draft (h : Framed w w') {draft' : HostDraftState} (hdraft : draft' ∈ w'.host_draft) :
    ∃ draft ∈ w.host_draft, draft'.marks = draft.marks ∧ draft'.number = draft.number := by
  have hmarks := h.marks
  have hslots := h.slots
  rw [Option.mem_def.mp hdraft] at hmarks
  obtain ⟨draft, hdraft₀, hsame⟩ := Option.map_eq_some_iff.mp hmarks.symm
  refine ⟨draft, hdraft₀, hsame.symm, ?_⟩
  have hnumbers : some draft'.number = some draft.number := by
    simpa only [SecureWorkspace.slots, Option.mem_def.mp hdraft, hdraft₀, Option.map_some]
      using hslots
  exact Option.some.inj hnumbers

theorem Framed.designates (h : Framed w w') (hw : w.Designates) : w'.Designates where
  selected draft' hdraft' := by
    obtain ⟨draft, hdraft, hmarks, _⟩ := h.draft hdraft'
    obtain ⟨hserials, hselected⟩ := Prod.mk.inj hmarks
    rw [hserials, hselected]
    exact hw.selected draft hdraft
  pending draft' hdraft' := by
    obtain ⟨draft, hdraft, hmarks, _⟩ := h.draft hdraft'
    rw [(Prod.mk.inj hmarks).1, SecureWorkspace.pending, h.requested]
    rcases h.pending with hsame | hnone
    · rw [hsame]
      exact hw.pending draft hdraft
    · rw [hnone]
      exact Mark.follows_unset _
  answered := by
    rw [h.answered]
    exact hw.answered

theorem Framed.numbered (h : Framed w w') (hw : w.Numbered) : w'.Numbered where
  opened draft' hdraft' := by
    obtain ⟨draft, hdraft, _, hnumber⟩ := h.draft hdraft'
    rw [hnumber]
    exact (hw.opened draft hdraft).trans_le h.opened
  distinct draft' hdraft' := by
    obtain ⟨draft, hdraft, hmarks, _⟩ := h.draft hdraft'
    rw [(Prod.mk.inj hmarks).1]
    exact hw.distinct draft hdraft
  added draft' hdraft' serial hserial := by
    obtain ⟨draft, hdraft, hmarks, _⟩ := h.draft hdraft'
    rw [(Prod.mk.inj hmarks).1] at hserial
    exact (hw.added draft hdraft serial hserial).trans_le h.added
  chosen draft' hdraft' serial hserial := by
    obtain ⟨draft, hdraft, hmarks, _⟩ := h.draft hdraft'
    have hchosen : draft'.chosen = draft.chosen :=
      congrArg Mark.item (Prod.mk.inj hmarks).2
    rw [hchosen] at hserial
    exact (hw.chosen draft hdraft serial hserial).trans_le h.added
  requested serial hserial := by
    rw [h.requested] at hserial
    exact (hw.requested serial hserial).trans_le h.added

end Framed

section Items

variable {w : SecureWorkspace} {draft draft' : HostDraftState}

/-- A new item, which is selected, is no concern of the pending index. -/
theorem pushed (hnumbered : w.Numbered) (hdesignates : w.Designates)
    (h : w.host_draft = some draft) (hmarks : draft'.marks = draft.marks)
    (hnumber : draft'.number = draft.number) (auth : HostAuthRef) :
    (w.push_auth draft' auth).Numbered ∧ (w.push_auth draft' auth).Designates := by
  obtain ⟨hserials, hselected⟩ := Prod.mk.inj hmarks
  have hnew : w.ledger.added ∉ draft'.serials := by
    intro hmem
    rw [hserials] at hmem
    exact absurd (hnumbered.added draft h _ hmem) (Nat.lt_irrefl _)
  have hlast : (draft'.serials ++ [w.ledger.added])[draft'.serials.length]? =
      some w.ledger.added := List.getElem?_concat_length ..
  refine ⟨⟨?_, ?_, ?_, ?_, ?_⟩, ⟨?_, ?_, ?_⟩⟩
  · rintro _ ⟨⟩
    exact hnumber ▸ hnumbered.opened draft h
  · rintro _ ⟨⟩
    rw [HostDraftState.serials_push_auth, List.nodup_append_comm]
    exact List.nodup_cons.mpr ⟨hnew, hserials ▸ hnumbered.distinct draft h⟩
  · rintro _ ⟨⟩ serial hserial
    rw [HostDraftState.serials_push_auth, List.mem_append, List.mem_singleton] at hserial
    rcases hserial with hold | hlast
    · exact Nat.lt_succ_of_lt (hnumbered.added draft h serial (hserials ▸ hold))
    · exact hlast ▸ Nat.lt_succ_self _
  · rintro _ ⟨⟩ serial hserial
    have hchosen : (draft'.push_auth ⟨auth, w.ledger.added⟩).chosen = some w.ledger.added :=
      (congrArg Mark.item (HostDraftState.selected_push_auth draft' _)).trans hlast
    rw [hchosen] at hserial
    cases hserial
    exact Nat.lt_succ_self _
  · intro serial hserial
    exact Nat.lt_succ_of_lt (hnumbered.requested serial hserial)
  · rintro _ ⟨⟩
    rw [HostDraftState.selected_push_auth, HostDraftState.serials_push_auth]
    exact Mark.follows_put _
  · rintro _ ⟨⟩
    rw [HostDraftState.serials_push_auth, hserials]
    refine (hdesignates.pending draft h).append fun hrequested => ?_
    exact absurd (hnumbered.requested _ hrequested) (Nat.lt_irrefl _)
  · exact hdesignates.answered

/-- The pending index is set for the item that is there. -/
theorem requested (hnumbered : w.Numbered) (hdesignates : w.Designates)
    (h : w.host_draft = some draft) (index : Nat) :
    (w.request_passphrase draft index).Numbered ∧ (w.request_passphrase draft index).Designates := by
  have hitem : draft.auth_items[index]?.map AuthItem.serial = draft.serials[index]? :=
    (List.getElem?_map ..).symm
  refine ⟨⟨hnumbered.opened, hnumbered.distinct, hnumbered.added, hnumbered.chosen, ?_⟩,
    ⟨hdesignates.selected, ?_, hdesignates.answered⟩⟩
  · intro serial hserial
    change draft.auth_items[index]?.map AuthItem.serial = some serial at hserial
    rw [hitem] at hserial
    exact hnumbered.added draft h serial (List.mem_of_getElem? hserial)
  · intro found hfound
    cases h.symm.trans hfound
    change (Mark.mk (some index) (draft.auth_items[index]?.map AuthItem.serial)).Follows _
    rw [hitem]
    exact Mark.follows_put index

/-- An item of a draft with the same items is selected. -/
theorem selects (hnumbered : w.Numbered) (hdesignates : w.Designates)
    (h : w.host_draft = some draft) (hserials : draft'.serials = draft.serials)
    (hnumber : draft'.number = draft.number) (index : Nat) :
    { w with host_draft := some (draft'.select index) }.Numbered ∧
      { w with host_draft := some (draft'.select index) }.Designates := by
  have hselected := draft'.selected_select index
  refine ⟨⟨?_, ?_, ?_, ?_, hnumbered.requested⟩, ⟨?_, ?_, hdesignates.answered⟩⟩
  · rintro _ ⟨⟩
    exact hnumber ▸ hnumbered.opened draft h
  · rintro _ ⟨⟩
    rw [HostDraftState.serials_select, hserials]
    exact hnumbered.distinct draft h
  · rintro _ ⟨⟩ serial hserial
    rw [HostDraftState.serials_select, hserials] at hserial
    exact hnumbered.added draft h serial hserial
  · rintro _ ⟨⟩ serial hserial
    have hchosen : draft'.serials[index]? = some serial :=
      (congrArg Mark.item hselected).symm.trans hserial
    rw [hserials] at hchosen
    exact hnumbered.added draft h serial (List.mem_of_getElem? hchosen)
  · rintro _ ⟨⟩
    rw [hselected, HostDraftState.serials_select]
    exact Mark.follows_put index
  · rintro _ ⟨⟩
    rw [HostDraftState.serials_select, hserials]
    exact hdesignates.pending draft h

/-- The items are put in another order, or one is taken out: what stays to be shown is where that
leaves the indices. -/
theorem rearranged (hnumbered : w.Numbered) (h : w.host_draft = some draft)
    (hnumber : draft'.number = draft.number) (hdistinct : draft'.serials.Nodup)
    (hsub : ∀ serial ∈ draft'.serials, serial ∈ draft.serials)
    (hchosen : ∀ serial ∈ draft'.chosen, serial ∈ draft.chosen ∨ serial ∈ draft.serials) :
    { w with host_draft := some draft' }.Numbered := by
  refine ⟨?_, ?_, ?_, ?_, hnumbered.requested⟩
  · rintro _ ⟨⟩
    exact hnumber ▸ hnumbered.opened draft h
  · rintro _ ⟨⟩
    exact hdistinct
  · rintro _ ⟨⟩ serial hserial
    exact hnumbered.added draft h serial (hsub serial hserial)
  · rintro _ ⟨⟩ serial hserial
    rcases hchosen serial hserial with hbefore | hthere
    · exact hnumbered.chosen draft h serial hbefore
    · exact hnumbered.added draft h serial hthere

theorem designates_iff (hdesignates : w.Designates) :
    { w with host_draft := some draft' }.Designates ↔
      draft'.selected.Follows draft'.serials ∧ w.pending.Follows draft'.serials := by
  constructor
  · intro hafter
    exact ⟨hafter.selected draft' rfl, hafter.pending draft' rfl⟩
  · rintro ⟨hselected, hpending⟩
    refine ⟨?_, ?_, hdesignates.answered⟩
    · rintro _ ⟨⟩
      exact hselected
    · rintro _ ⟨⟩
      exact hpending

theorem removed_in_order (hnumbered : w.Numbered) (hdesignates : w.Designates)
    (h : w.host_draft = some draft) {index : Nat} (hindex : index < draft.auth_items.length) :
    (w.remove_auth_item index).Numbered ∧ ((w.remove_auth_item index).Designates ↔
      (∀ p, draft.selected.StandsAt draft.serials p → p ≤ index ∨ p + 1 = draft.serials.length) ∧
        ∀ p, w.pending.StandsAt draft.serials p → p ≤ index) := by
  obtain ⟨hserials, hselected⟩ := draft.remove_in_range hindex
  have hdistinct := hnumbered.distinct draft h
  have hafter : w.remove_auth_item index =
      { w with host_draft := some (draft.remove_auth_item index) } := by
    rw [remove_auth_item, h, Option.map_some]
  rw [hafter]
  constructor
  · refine rearranged hnumbered h (draft.number_remove_auth_item index) ?_ ?_ ?_
    · rw [hserials]
      exact hdistinct.eraseIdx index
    · intro serial hserial
      rw [hserials] at hserial
      exact List.mem_of_mem_eraseIdx hserial
    · intro serial hserial
      have hchosen : (draft.remove_auth_item index).chosen = draft.chosen :=
        congrArg Mark.item hselected
      exact .inl (hchosen ▸ hserial)
  · rw [designates_iff hdesignates, hselected, hserials]
    exact and_congr
      (Mark.follows_clamped_iff (hdesignates.selected draft h) hdistinct
        (draft.length_serials ▸ hindex))
      (Mark.follows_eraseIdx_iff (hdesignates.pending draft h) hdistinct)

theorem moved_in_order (hnumbered : w.Numbered) (hdesignates : w.Designates)
    (h : w.host_draft = some draft) {index : Nat} {direction : Int}
    (hindex : index < draft.auth_items.length)
    (htarget : HostDraftState.move_target index direction < draft.auth_items.length) :
    (w.move_auth_item index direction).Numbered ∧ ((w.move_auth_item index direction).Designates ↔
      index = HostDraftState.move_target index direction ∨
        ∀ p, w.pending.StandsAt draft.serials p →
          p ≠ index ∧ p ≠ HostDraftState.move_target index direction) := by
  obtain ⟨hserials, hselected⟩ := draft.move_in_range hindex htarget
  have hdistinct := hnumbered.distinct draft h
  have hafter : w.move_auth_item index direction =
      { w with host_draft := some (draft.move_auth_item index direction) } := by
    rw [move_auth_item, h, Option.map_some]
  rw [hafter]
  generalize HostDraftState.move_target index direction = target at *
  constructor
  · refine rearranged hnumbered h (draft.number_move_auth_item index direction) ?_ ?_ ?_
    · rw [hserials]
      exact swap_perm.nodup_iff.mpr hdistinct
    · intro serial hserial
      rw [hserials] at hserial
      exact swap_perm.mem_iff.mp hserial
    · intro serial hserial
      have hchosen : (draft.move_auth_item index direction).chosen =
          (swap draft.serials index target)[target]? := congrArg Mark.item hselected
      rw [hchosen] at hserial
      exact .inr (swap_perm.mem_iff.mp (List.mem_of_getElem? hserial))
  · rw [designates_iff hdesignates, hselected, hserials]
    rw [draft.length_serials.symm] at hindex htarget
    refine (and_iff_right (Mark.follows_put target)).trans ?_
    exact Mark.follows_swap_iff (hdesignates.pending draft h) hdistinct hindex htarget

end Items

section Frames

variable {b : Backend} {w : SecureWorkspace} {draft : HostDraftState}

/-- A draft that is still open was not closed. -/
theorem Numbered.still_open (hnumbered : w.Numbered) (h : w.host_draft = some draft)
    {w' : SecureWorkspace} {closes : DraftSlot → Bool} (hturned : w.slots.Turned w'.slots closes)
    (hsame : w'.slots.holds .host = w.slots.holds .host) : closes .host = false := by
  have hholds : w.slots.holds .host = some draft.number := by
    simp only [SecureWorkspace.slots, h, Option.map_some]
  exact (hturned.stays_iff hholds (hnumbered.opened draft h)).mp (hsame.trans hholds)

theorem framed_refresh_saved_hosts : Framed w (w.refresh_saved_hosts b) := by
  unfold refresh_saved_hosts
  dsimp only
  split <;> exact ⟨rfl, rfl, .inl rfl, rfl, rfl, Nat.le_refl _, Nat.le_refl _⟩

theorem framed_activate_host {host_id : Option String} (hclosed : w.opens_host b host_id = false) :
    Framed w (w.activate_host_draft b host_id) := by
  have hcached : Framed w ({ w with secure_section := .hosts }.refresh_vault_cache b) :=
    ⟨rfl, rfl, .inl rfl, rfl, rfl, Nat.le_refl _, Nat.le_refl _⟩
  have hnone : (({ w with secure_section := .hosts }.refresh_vault_cache
      b).refresh_saved_hosts b).host_draft_for b host_id = none := by
    rw [← Option.isSome_eq_false_iff.trans Option.isNone_iff_eq_none]
    exact (host_draft_for_isSome (w := { w with secure_section := .hosts }) host_id).trans hclosed
  unfold activate_host_draft
  dsimp only
  rw [hnone]
  exact hcached.trans framed_refresh_saved_hosts

theorem framed_activate_credential (id : Option String) (origin : CredentialDraftOrigin) :
    Framed w (w.activate_credential_draft b id origin) := by
  unfold activate_credential_draft
  dsimp only
  generalize hasked : (if origin = .standalone then
    { w with pending_passphrase_auth_index := none } else w) = asked
  have hframed : Framed w ({ asked with secure_section := .credentials }.refresh_vault_cache b) := by
    rw [← hasked]
    split
    · exact ⟨rfl, rfl, .inr rfl, rfl, rfl, Nat.le_refl _, Nat.le_refl _⟩
    · exact ⟨rfl, rfl, .inl rfl, rfl, rfl, Nat.le_refl _, Nat.le_refl _⟩
  split
  · exact hframed
  · exact hframed.trans ⟨rfl, rfl, .inl rfl, rfl, rfl, Nat.le_succ _, Nat.le_refl _⟩

theorem framed_apply_vault_snapshot (h : w.host_draft = some draft) {snapshot : VaultUiSnapshot}
    (hopen : w.snapshot_closes snapshot .host = false) :
    Framed w (w.apply_vault_snapshot snapshot) := by
  obtain ⟨_, _, _, _, hledger, hpending⟩ := before_reconciling_same (w := w) snapshot
  have hslots : (w.apply_vault_snapshot snapshot).slots.holds .host = w.slots.holds .host := by
    rw [holds_apply_vault_snapshot, hopen, if_neg Bool.false_ne_true]
  refine ⟨?_, hslots, .inl hpending, congrArg Ledger.requested hledger,
    congrArg Ledger.answered hledger, (congrArg Ledger.opened hledger).ge,
    (congrArg Ledger.added hledger).ge⟩
  rcases host_draft_refreshed h snapshot with ⟨hclosed, _⟩ | ⟨_, hafter | hafter⟩
  · have hcloses : w.snapshot_closes snapshot .host = true := by
      rw [snapshot_closes, vault_of, h]
      exact hclosed
    rw [hopen] at hcloses
    cases hcloses
  · rw [hafter, h]
  · rw [hafter, h]
    rfl

theorem framed_apply_pending (hnumbered : w.Numbered) (h : w.host_draft = some draft)
    {pending : PendingAction}
    (hsame : (w.apply_pending_action b pending).slots.holds .host = w.slots.holds .host) :
    Framed w (w.apply_pending_action b pending) := by
  have hsome : w.slots.holds .host ≠ none := by
    simp [SecureWorkspace.slots, h]
  cases pending with
  | closeSecureWorkspace => exact absurd hsame.symm hsome
  | switchSecureSection to_section => exact absurd hsame.symm hsome
  | openHostDraft host_id =>
    have hasked : Framed w { w with confirm_dialog := none } :=
      ⟨rfl, rfl, .inl rfl, rfl, rfl, Nat.le_refl _, Nat.le_refl _⟩
    have hturned := turned_activate_host (b := b) (w := { w with confirm_dialog := none }) host_id
    exact hasked.trans (framed_activate_host ((hasked.numbered hnumbered).still_open h hturned hsame))
  | openTunnelDraft tunnel_id host_id =>
    have hnone : (({ w with confirm_dialog := none } : SecureWorkspace).activate_tunnel_draft b
        tunnel_id host_id).slots.holds .host = none := by
      unfold activate_tunnel_draft
      dsimp only
      split <;> rfl
    exact absurd (hsame.symm.trans hnone) hsome
  | openCredentialDraft id origin =>
    have hasked : Framed w { w with confirm_dialog := none } :=
      ⟨rfl, rfl, .inl rfl, rfl, rfl, Nat.le_refl _, Nat.le_refl _⟩
    exact hasked.trans (framed_activate_credential id origin)

theorem framed_request_pending (hnumbered : w.Numbered) (h : w.host_draft = some draft)
    {pending : PendingAction}
    (hsame : (w.request_pending_action b pending).slots.holds .host = w.slots.holds .host) :
    Framed w (w.request_pending_action b pending) := by
  unfold request_pending_action at hsame ⊢
  split
  · exact ⟨rfl, rfl, .inl rfl, rfl, rfl, Nat.le_refl _, Nat.le_refl _⟩
  · rename_i hclean
    rw [if_neg hclean] at hsame
    exact framed_apply_pending hnumbered h hsame

theorem attach_key_in_order (hnumbered : w.Numbered) (hdesignates : w.Designates)
    (h : w.host_draft = some draft) (key_id : String) (encrypted : Bool) :
    (w.attach_key b draft key_id encrypted).Numbered ∧
      (w.attach_key b draft key_id encrypted).Designates := by
  obtain ⟨hnumbered, hdesignates⟩ := pushed hnumbered hdesignates h rfl rfl
    (.privateKey key_id none)
  have hframed : Framed (w.push_auth draft (.privateKey key_id none))
      { w.push_auth draft (.privateKey key_id none) with secure_section := .hosts } :=
    ⟨rfl, rfl, .inl rfl, rfl, rfl, Nat.le_refl _, Nat.le_refl _⟩
  have hnumbered := hframed.numbered hnumbered
  have hdesignates := hframed.designates hdesignates
  unfold attach_key
  cases encrypted with
  | false => exact ⟨hnumbered, hdesignates⟩
  | true =>
    obtain ⟨hnumbered, hdesignates⟩ := requested hnumbered hdesignates rfl draft.auth_items.length
    have hopened := framed_activate_credential (b := b) (w := request_passphrase
      { w.push_auth draft (.privateKey key_id none) with secure_section := .hosts }
      (draft.push_auth ⟨.privateKey key_id none, w.ledger.added⟩) draft.auth_items.length) none
      .hostAuth
    exact ⟨hopened.numbered hnumbered, hopened.designates hdesignates⟩

/-- The item that a saved credential becomes the passphrase of was asked about, if it is still known
what was asked about. -/
def Answers (w : SecureWorkspace) (draft : HostDraftState) : Prop :=
  ∀ index, w.pending_passphrase_auth_index = some index → draft.private_key_at index = true →
    ∃ serial, w.ledger.requested = some serial ∧ serial ∈ draft.serials

theorem attached_saved_in_order (hnumbered : w.Numbered) (hdesignates : w.Designates)
    (h : w.host_draft = some draft) (credential_id : String) :
    (w.attach_saved_credential draft credential_id).Numbered ∧
      ((w.attach_saved_credential draft credential_id).Designates ↔ w.Answers draft) := by
  have htaken : Framed w { w with pending_passphrase_auth_index := none } :=
    ⟨rfl, rfl, .inr rfl, rfl, rfl, Nat.le_refl _, Nat.le_refl _⟩
  have hnumbered' := htaken.numbered hnumbered
  have hdesignates' := htaken.designates hdesignates
  unfold attach_saved_credential
  dsimp only
  cases hfound : w.pending_passphrase_auth_index.bind fun index =>
      (draft.auth_items[index]?.filter AuthItem.is_private_key).map fun key => (index, key) with
  | none =>
    obtain ⟨hnumbered, hdesignates⟩ := pushed hnumbered' hdesignates' h rfl rfl
      (.password credential_id)
    refine ⟨hnumbered, iff_of_true hdesignates fun index hindex hkey => ?_⟩
    rw [hindex, Option.bind_some, Option.map_eq_none_iff, Option.filter_eq_none_iff] at hfound
    obtain ⟨item, hitem, hprivate⟩ := (Option.any_eq_true _ _).mp hkey
    exact absurd hprivate (hfound item hitem)
  | some found =>
    obtain ⟨index, key⟩ := found
    obtain ⟨index, hindex, hkey⟩ := Option.bind_eq_some_iff.mp hfound
    obtain ⟨item, hitem, hpair⟩ := Option.map_eq_some_iff.mp hkey
    cases hpair
    obtain ⟨hat, hprivate⟩ := Option.filter_eq_some_iff.mp hitem
    have hserial : draft.serials[index]? = some key.serial := by
      rw [HostDraftState.serials, List.getElem?_map, hat, Option.map_some]
    have hmem : key.serial ∈ draft.serials := List.mem_of_getElem? hserial
    have hserials : (draft.set_passphrase index (some credential_id)).serials = draft.serials :=
      draft.serials_set_passphrase _ _
    obtain ⟨hnumbered, hselects⟩ := selects hnumbered' hdesignates' h hserials rfl index
    refine ⟨⟨hnumbered.opened, hnumbered.distinct, hnumbered.added, hnumbered.chosen,
      hnumbered.requested⟩, ?_⟩
    have hkey : draft.private_key_at index = true := by
      rw [HostDraftState.private_key_at, hat]
      exact hprivate
    constructor
    · intro hafter index' _ _
      exact ⟨key.serial, hafter.answered _ List.mem_cons_self, hmem⟩
    · intro hanswers
      obtain ⟨serial, hrequested, hthere⟩ := hanswers index hindex hkey
      have hpending := hdesignates.pending draft h serial hthere hrequested index hindex
      cases hserial.symm.trans hpending
      refine ⟨hselects.selected, hselects.pending, fun answer hanswer => ?_⟩
      rcases List.mem_cons.mp hanswer with rfl | hbefore
      · exact hrequested
      · exact hdesignates.answered answer hbefore

/-- A credential that is saved for the host draft, as the vault has taken it. -/
def saved_for_host (b : Backend) (w : SecureWorkspace) : Option VaultScopedCredentialSummary :=
  w.credential_draft.bind fun draft =>
    if draft.validation_errors = [] ∧ draft.origin = .hostAuth then
      draft.vault_id.bind fun vault_id =>
        (b.save_password_credential vault_id draft.credential).toOption
    else none

theorem returned_in_order (hnumbered : w.Numbered) (hdesignates : w.Designates)
    (h : w.host_draft = some draft) (summary : VaultScopedCredentialSummary) :
    (w.return_to_host summary).Numbered ∧ ((w.return_to_host summary).Designates ↔
      (draft.vault_id = some summary.vault_id → w.Answers draft)) := by
  have hframed : Framed w { w with credential_draft := none, secure_section := .hosts } :=
    ⟨rfl, rfl, .inl rfl, rfl, rfl, Nat.le_refl _, Nat.le_refl _⟩
  have hnumbered := hframed.numbered hnumbered
  have hdesignates := hframed.designates hdesignates
  unfold return_to_host
  dsimp only
  split
  · rename_i hnone
    rw [h] at hnone
    cases hnone
  · rename_i found hfound
    cases h.symm.trans hfound
    by_cases hvault : draft.vault_id = some summary.vault_id
    · rw [if_pos hvault]
      obtain ⟨hnumbered, hiff⟩ := attached_saved_in_order hnumbered hdesignates h
        summary.credential.id
      exact ⟨hnumbered, hiff.trans ⟨fun hanswers _ => hanswers, fun hanswers => hanswers hvault⟩⟩
    · rw [if_neg hvault]
      exact ⟨hnumbered, iff_of_true hdesignates fun hin => absurd hin hvault⟩

theorem Framed.in_order {w' : SecureWorkspace} (hframed : Framed w w') (hnumbered : w.Numbered)
    (hdesignates : w.Designates) {P : Prop} (hp : P) : w'.Numbered ∧ (w'.Designates ↔ P) :=
  ⟨hframed.numbered hnumbered, iff_of_true (hframed.designates hdesignates) hp⟩

theorem saved_credential_in_order (hnumbered : w.Numbered) (hdesignates : w.Designates)
    (h : w.host_draft = some draft)
    (hsame : (w.save_credential_draft b).slots.holds .host = w.slots.holds .host) :
    (w.save_credential_draft b).Numbered ∧ ((w.save_credential_draft b).Designates ↔
      ∀ summary ∈ w.saved_for_host b, draft.vault_id = some summary.vault_id →
        w.Answers draft) := by
  obtain ⟨closes, hturned, hcloses⟩ := turned_save_credential (b := b) (w := w)
  have hclosed := hnumbered.still_open h hturned hsame
  rw [hcloses .host rfl] at hclosed
  have hrefused : ∀ error, Framed w (w.set_credential_error error) := fun _ =>
    ⟨rfl, rfl, .inl rfl, rfl, rfl, Nat.le_refl _, Nat.le_refl _⟩
  unfold save_credential_draft saved_for_host
  unfold saves_credential at hclosed
  cases hcredential : w.credential_draft with
  | none => exact Framed.refl.in_order hnumbered hdesignates nofun
  | some credential =>
    rw [hcredential, Option.any_some] at hclosed
    dsimp only
    rw [Option.bind_some]
    by_cases hvalid : credential.validation_errors = []
    · rw [if_neg (not_not.mpr hvalid)]
      rw [decide_eq_true hvalid, Bool.true_and] at hclosed
      cases hvault : credential.vault_id with
      | none =>
        refine (hrefused _).in_order hnumbered hdesignates ?_
        intro summary hsummary
        split at hsummary <;> cases hsummary
      | some vault_id =>
        rw [hvault, Option.any_some] at hclosed
        dsimp only
        cases hsaved : b.save_password_credential vault_id credential.credential with
        | error error =>
          refine (hrefused _).in_order hnumbered hdesignates ?_
          intro summary hsummary
          split at hsummary
          · rw [Option.bind_some, hsaved] at hsummary
            cases hsummary
          · cases hsummary
        | ok summary =>
          rw [hsaved] at hclosed
          have hframed : Framed w (w.refresh_vault_ui b) := framed_apply_vault_snapshot h hclosed
          have hnumbered' := hframed.numbered hnumbered
          have hdesignates' := hframed.designates hdesignates
          cases horigin : credential.origin with
          | standalone =>
            have hmapped : Framed (w.refresh_vault_ui b) { w.refresh_vault_ui b with
                credential_draft := (w.refresh_vault_ui b).credential_draft.map fun draft =>
                  { draft with
                    vault_id := some summary.vault_id
                    credential_id := some summary.credential.id
                    dirty := false
                    error := none } } :=
              ⟨rfl, rfl, .inl rfl, rfl, rfl, Nat.le_refl _, Nat.le_refl _⟩
            refine (hframed.trans hmapped).in_order hnumbered hdesignates ?_
            intro summary hsummary
            rw [if_neg (by simp)] at hsummary
            cases hsummary
          | hostAuth =>
            have hanswers : (w.refresh_vault_ui b).Answers draft ↔ w.Answers draft := by
              obtain ⟨_, _, _, _, _, hpending⟩ := before_reconciling_same (w := w) b.snapshot
              have hpending : (w.refresh_vault_ui b).pending_passphrase_auth_index =
                w.pending_passphrase_auth_index := hpending
              rw [Answers, Answers, hframed.requested, hpending]
            have hsummary : (∀ saved ∈ (some vault_id).bind fun vault_id =>
                (b.save_password_credential vault_id credential.credential).toOption,
                draft.vault_id = some saved.vault_id → w.Answers draft) ↔
                (draft.vault_id = some summary.vault_id → (w.refresh_vault_ui b).Answers draft) := by
              rw [Option.bind_some, hsaved, hanswers]
              constructor
              · exact fun hall => hall summary rfl
              · rintro hone _ ⟨⟩
                exact hone
            rw [if_pos ⟨hvalid, rfl⟩, hsummary]
            rcases host_draft_refreshed h b.snapshot with ⟨hgone, _⟩ | ⟨_, hafter | hafter⟩
            · rw [show (draft.vault_id.any fun vault_id => !unlocked_in b.snapshot vault_id) =
                w.snapshot_closes b.snapshot .host by rw [snapshot_closes, vault_of, h]; rfl] at hgone
              rw [hgone] at hclosed
              cases hclosed
            · exact returned_in_order hnumbered' hdesignates' hafter summary
            · exact returned_in_order hnumbered' hdesignates' hafter summary
    · rw [if_pos hvalid]
      refine (hrefused _).in_order hnumbered hdesignates ?_
      intro summary hsummary
      rw [if_neg (by simp [hvalid])] at hsummary
      cases hsummary

theorem removal_framed (h : w.host_draft = some draft) {deleted : Except String Bool}
    (hclosed : w.removal_closes b deleted .host = false) : Framed w (w.removed b deleted) := by
  unfold removed
  unfold removal_closes at hclosed
  cases deleted with
  | error error => exact .refl
  | ok deleted =>
    cases deleted with
    | false => exact .refl
    | true => exact framed_apply_vault_snapshot h hclosed

theorem attempt_framed (h : w.host_draft = some draft)
    {references : String → String → Except String (List HostReferenceSummary)}
    {delete : String → String → Except String Bool} {scope_key : String}
    (hclosed : w.attempt_closes b references delete scope_key .host = false) :
    Framed w (w.attempt_delete b references delete scope_key) := by
  unfold attempt_delete
  unfold attempt_closes at hclosed
  cases hscope : split_scope_key scope_key with
  | none => exact .refl
  | some scope =>
    rw [hscope] at hclosed
    dsimp only at hclosed ⊢
    cases hreferences : references scope.1 scope.2 with
    | error error =>
      rw [hreferences] at hclosed
      exact removal_framed h hclosed
    | ok hosts =>
      rw [hreferences] at hclosed
      cases hosts with
      | nil => exact removal_framed h hclosed
      | cons first rest => exact ⟨rfl, rfl, .inl rfl, rfl, rfl, Nat.le_refl _, Nat.le_refl _⟩

theorem delete_framed (h : w.host_draft = some draft)
    {delete : String → String → Except String Bool} {scope_key : String}
    (hclosed : w.delete_closes b delete scope_key .host = false) :
    Framed w (w.delete_saved b delete scope_key) := by
  unfold delete_saved
  unfold delete_closes at hclosed
  cases hscope : split_scope_key scope_key with
  | none => exact .refl
  | some scope =>
    rw [hscope] at hclosed
    exact removal_framed h hclosed

theorem saved_host_framed (h : w.host_draft = some draft)
    (hclosed : (w.saves_host b && w.snapshot_closes b.snapshot .host) = false) :
    Framed w (w.save_host_draft b) := by
  have hrefused : ∀ error, Framed w (w.set_host_error error) := fun _ =>
    framed_map_host (fun _ => rfl) fun _ => rfl
  unfold save_host_draft
  unfold saves_host at hclosed
  rw [h, Option.any_some] at hclosed
  rw [h]
  dsimp only
  by_cases hvalid : draft.validation_errors = []
  · rw [if_neg (not_not.mpr hvalid)]
    rw [decide_eq_true hvalid, Bool.true_and] at hclosed
    cases hvault : draft.vault_id with
    | none => exact hrefused _
    | some vault_id =>
      rw [hvault, Option.any_some] at hclosed
      dsimp only
      cases hsaved : b.save_host vault_id draft.profile with
      | error error => exact hrefused _
      | ok summary =>
        rw [hsaved] at hclosed
        exact (framed_apply_vault_snapshot h hclosed).trans
          (framed_map_host (fun _ => rfl) fun _ => rfl)
  · rw [if_pos hvalid]
    exact hrefused _

theorem saved_tunnel_framed (h : w.host_draft = some draft)
    (hclosed : (w.saves_tunnel b && w.snapshot_closes b.snapshot .host) = false) :
    Framed w (w.save_tunnel_draft b) := by
  have hrefused : ∀ error, Framed w (w.set_tunnel_error error) := fun _ =>
    ⟨rfl, rfl, .inl rfl, rfl, rfl, Nat.le_refl _, Nat.le_refl _⟩
  unfold save_tunnel_draft
  unfold saves_tunnel at hclosed
  cases htunnel : w.tunnel_draft with
  | none => exact .refl
  | some tunnel =>
    rw [htunnel, Option.any_some] at hclosed
    dsimp only
    by_cases hvalid : tunnel.validation_errors = []
    · rw [if_neg (not_not.mpr hvalid)]
      rw [decide_eq_true hvalid, Bool.true_and] at hclosed
      cases hvault : tunnel.vault_id with
      | none => exact .refl
      | some vault_id =>
        cases hhost : tunnel.host_id with
        | none => exact .refl
        | some host_id =>
          rw [hvault, hhost, Option.any_some, Option.any_some] at hclosed
          dsimp only
          cases hsaved : b.save_port_forward vault_id (tunnel.profile host_id) with
          | error error => exact hrefused _
          | ok summary =>
            rw [hsaved] at hclosed
            exact (framed_apply_vault_snapshot h hclosed).trans
              ⟨rfl, rfl, .inl rfl, rfl, rfl, Nat.le_refl _, Nat.le_refl _⟩
    · rw [if_pos hvalid]
      exact hrefused _

/-- A key is made: it is put into the host draft or not, and nothing else happens to the items. -/
theorem key_created_in_order (hnumbered : w.Numbered) (hdesignates : w.Designates)
    (h : w.host_draft = some draft) {created : Except String VaultScopedKeySummary}
    (hclosed : w.created_closes b created .host = false) :
    (w.key_created b created).Numbered ∧ (w.key_created b created).Designates := by
  cases created with
  | error error => exact ⟨hnumbered, hdesignates⟩
  | ok summary =>
    have hopen : w.snapshot_closes b.snapshot .host = false := (Bool.or_eq_false_iff.mp hclosed).1
    have hframed : Framed w (w.refresh_vault_ui b) := framed_apply_vault_snapshot h hopen
    have hnumbered := hframed.numbered hnumbered
    have hdesignates := hframed.designates hdesignates
    unfold key_created on_private_key_created
    dsimp only
    cases hdraft : (w.refresh_vault_ui b).host_draft with
    | none => exact ⟨hnumbered, hdesignates⟩
    | some refreshed =>
      dsimp only
      split
      · exact attach_key_in_order hnumbered hdesignates hdraft _ _
      · exact ⟨hnumbered, hdesignates⟩

/-- What is attached goes into the draft that is open, or nowhere. -/
theorem attached_in_order (hnumbered : w.Numbered) (hdesignates : w.Designates)
    {vault_id : String} (hclosed : w.attach_closes vault_id = false)
    {attach : SecureWorkspace → SecureWorkspace}
    (hattach : (attach w).Numbered ∧ (attach w).Designates) :
    (match w.ensure_host_draft_for_vault b vault_id with
      | (w', false) => w'
      | (w', true) => attach w').Numbered ∧
    (match w.ensure_host_draft_for_vault b vault_id with
      | (w', false) => w'
      | (w', true) => attach w').Designates := by
  rcases ensure_cases (b := b) (w := w) vault_id with ⟨_, hensure⟩ | ⟨_, _, hensure⟩ | ⟨_, hopens, _⟩
  · rw [hensure]
    exact hattach
  · rw [hensure]
    exact ⟨hnumbered, hdesignates⟩
  · rw [hclosed] at hopens
    cases hopens

end Frames

end SecureWorkspace

/-- What keeps the indices on their items. A removal is not before the selected item, unless that is
the last, and not before the one a passphrase is asked for. A move does not take the latter away from
its place. A credential that is saved to be the passphrase of a private key finds the item that asked
for it in the draft. -/
def SecureOp.Follows (b : Backend) (w : SecureWorkspace) : SecureOp → Prop
  | remove_auth_item index => ∀ draft ∈ w.host_draft, index < draft.auth_items.length →
      (∀ p, draft.selected.StandsAt draft.serials p → p ≤ index ∨ p + 1 = draft.serials.length) ∧
        ∀ p, w.pending.StandsAt draft.serials p → p ≤ index
  | move_auth_item index direction => ∀ draft ∈ w.host_draft,
      index < draft.auth_items.length →
      HostDraftState.move_target index direction < draft.auth_items.length →
      index = HostDraftState.move_target index direction ∨
        ∀ p, w.pending.StandsAt draft.serials p →
          p ≠ index ∧ p ≠ HostDraftState.move_target index direction
  | save_credential_draft => ∀ draft ∈ w.host_draft, ∀ summary ∈ w.saved_for_host b,
      draft.vault_id = some summary.vault_id → w.Answers draft
  | _ => True

/-- The workspace with its items and its host draft numbered anew, and what its two indices designate
noted down. -/
def SecureWorkspace.followed (w : SecureWorkspace) : SecureWorkspace :=
  let length := w.host_draft.elim 0 fun draft => draft.auth_items.length
  { w with
    host_draft := w.host_draft.map fun draft => { draft with
      number := 0
      auth_items := numbered 0 (draft.auth_items.map AuthItem.auth)
      chosen := draft.selected_auth.filter fun index => index < draft.auth_items.length }
    ledger :=
      { opened := 1
        added := length
        requested := w.pending_passphrase_auth_index.filter fun index => index < length
        answered := [] } }

/-- One operation on an open host draft, as long as that stays open. -/
def follow (w : SecureWorkspace) (act : Backend × SecureOp) : Option SecureWorkspace :=
  let next := act.2.run act.1 w
  if w.host_draft.isSome ∧ next.slots.holds .host = w.slots.holds .host then some next else none

section Runs

variable {b : Backend} {w : SecureWorkspace}

theorem SecureOp.in_order {draft : HostDraftState} (hnumbered : w.Numbered)
    (hdesignates : w.Designates) (h : w.host_draft = some draft) (op : SecureOp)
    (hsame : (op.run b w).slots.holds .host = w.slots.holds .host) :
    (op.run b w).Numbered ∧ ((op.run b w).Designates ↔ op.Follows b w) := by
  have hquiet : ∀ w' : SecureWorkspace, w'.host_draft = w.host_draft → w'.ledger = w.ledger →
      w'.pending_passphrase_auth_index = w.pending_passphrase_auth_index ∨
        w'.pending_passphrase_auth_index = none → w.Framed w' := by
    intro w' hhost hledger hpending
    refine ⟨by rw [hhost], ?_, hpending, by rw [hledger], by rw [hledger], ?_, ?_⟩
    · simp only [SecureWorkspace.slots, hhost]
    · rw [hledger]
    · rw [hledger]
  have hmapped : ∀ (f : HostDraftState → HostDraftState), (∀ draft, (f draft).marks = draft.marks) →
      (∀ draft, (f draft).number = draft.number) →
      w.Framed { w with host_draft := w.host_draft.map f } :=
    fun f hmarks hnumber => SecureWorkspace.framed_map_host hmarks hnumber
  have hadded : ∀ (w' : SecureWorkspace) (auth : HostAuthRef), w'.Numbered → w'.Designates →
      (w'.add_auth auth).Numbered ∧ (w'.add_auth auth).Designates := by
    intro w' auth hnumbered hdesignates
    unfold SecureWorkspace.add_auth
    cases hdraft : w'.host_draft with
    | none => exact ⟨hnumbered, hdesignates⟩
    | some draft =>
      have hmarks : ({ draft with error := none } : HostDraftState).marks = draft.marks := rfl
      exact SecureWorkspace.pushed hnumbered hdesignates hdraft hmarks rfl auth
  have hframe : w.Framed (op.run b w) → op.Follows b w →
      (op.run b w).Numbered ∧ ((op.run b w).Designates ↔ op.Follows b w) :=
    fun hframed hfollows => hframed.in_order hnumbered hdesignates hfollows
  have hmatch : ∀ {w' : SecureWorkspace}, w'.Numbered ∧ w'.Designates →
      w'.Numbered ∧ (w'.Designates ↔ True) := fun hafter => ⟨hafter.1, iff_true_intro hafter.2⟩
  have hsection : ∀ w' : SecureWorkspace, w'.Framed { w' with secure_section := .hosts } :=
    fun _ => ⟨rfl, rfl, .inl rfl, rfl, rfl, Nat.le_refl _, Nat.le_refl _⟩
  have hgenerated : ∀ generate,
      (w.generate_key_for_secure b generate).slots.holds .host = w.slots.holds .host →
      (w.generate_key_for_secure b generate).Numbered ∧
        (w.generate_key_for_secure b generate).Designates := by
    intro generate hsame
    unfold SecureWorkspace.generate_key_for_secure at hsame ⊢
    split at hsame
    · exact ⟨hnumbered, hdesignates⟩
    · exact SecureWorkspace.key_created_in_order hnumbered hdesignates h
        (hnumbered.still_open h (SecureWorkspace.turned_key_created _) hsame)
  have hasked : ∀ pending, op.run b w = w.request_pending_action b pending → op.Follows b w →
      (op.run b w).Numbered ∧ ((op.run b w).Designates ↔ op.Follows b w) := by
    intro pending hrun hfollows
    refine hframe ?_ hfollows
    rw [hrun] at hsame ⊢
    exact SecureWorkspace.framed_request_pending hnumbered h hsame
  cases op with
  | begin_add_host =>
    refine hframe ?_ trivial
    unfold run SecureWorkspace.begin_add_host at hsame ⊢
    cases hunlocked : w.vault_unlocked with
    | false => exact .refl
    | true =>
      rw [hunlocked, if_pos rfl] at hsame
      exact SecureWorkspace.framed_activate_host
        (hnumbered.still_open h (SecureWorkspace.turned_activate_host none) hsame)
  | begin_edit_host host_id => exact hasked _ rfl trivial
  | begin_new_host_wizard =>
    have hquiet' := hquiet (w.open_secure_workspace .hosts) rfl rfl (.inl rfl)
    exact hframe (hquiet'.trans (SecureWorkspace.framed_activate_host
      (hnumbered.still_open h (SecureWorkspace.turned_activate_host
        (w := w.open_secure_workspace .hosts) none) hsame))) trivial
  | begin_add_tunnel =>
    cases hhost : w.selected_host_id.or w.first_saved_host with
    | none =>
      refine hframe ?_ trivial
      rw [run, SecureWorkspace.begin_add_tunnel, hhost]
      exact .refl
    | some host_scope_key =>
      exact hasked (.openTunnelDraft none (some host_scope_key))
        (by rw [run, SecureWorkspace.begin_add_tunnel, hhost]) trivial
  | begin_add_tunnel_for_host host_scope_key => exact hasked _ rfl trivial
  | begin_edit_tunnel tunnel_scope_key => exact hasked _ rfl trivial
  | request_pending_action pending => exact hasked _ rfl trivial
  | open_secure_workspace to_section =>
    exact hframe (hquiet (w.open_secure_workspace to_section) rfl rfl (.inl rfl)) trivial
  | open_quick_create_credential =>
    have hquiet' := hquiet { w with pending_passphrase_auth_index := none } rfl rfl (.inr rfl)
    exact hframe (hquiet'.trans (SecureWorkspace.framed_request_pending
      (hquiet'.numbered hnumbered) h hsame)) trivial
  | add_password_credential =>
    have hquiet' := hquiet (w.open_secure_workspace .credentials) rfl rfl (.inl rfl)
    exact hframe (hquiet'.trans (SecureWorkspace.framed_activate_credential _ _)) trivial
  | edit_password_credential vault_id credential_id =>
    have hquiet' := hquiet (w.open_secure_workspace .credentials) rfl rfl (.inl rfl)
    exact hframe (hquiet'.trans (SecureWorkspace.framed_activate_credential _ _)) trivial
  | open_host_tunnel_settings vault_id host_id =>
    exact hframe (SecureWorkspace.framed_activate_host
      (hnumbered.still_open h (SecureWorkspace.turned_activate_host _) hsame)) trivial
  | confirm_dialog_primary =>
    refine hframe ?_ trivial
    unfold run SecureWorkspace.confirm_dialog_primary at hsame ⊢
    cases hdialog : w.confirm_dialog with
    | none => exact .refl
    | some kind =>
      rw [hdialog] at hsame
      cases kind with
      | discardChanges pending => exact SecureWorkspace.framed_apply_pending hnumbered h hsame
      | blockedDeletion review_section review_host_id =>
        have hquiet' := hquiet (SecureWorkspace.open_secure_workspace
          { w with confirm_dialog := none } review_section) rfl rfl (.inl rfl)
        cases review_host_id with
        | none => exact hquiet'
        | some host_id =>
          exact hquiet'.trans (SecureWorkspace.framed_activate_host
            (hnumbered.still_open h (SecureWorkspace.turned_activate_host
              (w := SecureWorkspace.open_secure_workspace { w with confirm_dialog := none }
                review_section) _) hsame))
      | deleteVault vault_id =>
        have hquiet' := hquiet { w with confirm_dialog := none } rfl rfl (.inl rfl)
        unfold SecureWorkspace.delete_managed_vault at hsame ⊢
        dsimp only at hsame ⊢
        cases hdeleted : b.delete_vault_permanently vault_id with
        | error error => exact hquiet'
        | ok done =>
          rw [hdeleted] at hsame
          exact hquiet'.trans (SecureWorkspace.framed_apply_vault_snapshot
            (w := { w with confirm_dialog := none }) h
            (hnumbered.still_open h (SecureWorkspace.turned_apply_vault_snapshot
              (w := { w with confirm_dialog := none }) _) hsame))
  | cancel_confirm_dialog =>
    exact hframe (hquiet w.cancel_confirm_dialog rfl rfl (.inl rfl)) trivial
  | confirm_delete_vault vault_id =>
    exact hframe (hquiet (w.confirm_delete_vault vault_id) rfl rfl (.inl rfl)) trivial
  | add_auth_password credential_id =>
    exact hmatch (hadded w (.password credential_id) hnumbered hdesignates)
  | add_auth_key key_id => exact hmatch (hadded w (.privateKey key_id none) hnumbered hdesignates)
  | select_auth index =>
    have hselects := SecureWorkspace.selects hnumbered hdesignates h rfl rfl index
    have hrun : (select_auth index).run b w = { w with host_draft := some (draft.select index) } := by
      rw [run, SecureWorkspace.select_auth, h, Option.map_some]
    rw [hrun]
    exact hmatch hselects
  | remove_auth_item index =>
    by_cases hindex : index < draft.auth_items.length
    · obtain ⟨hnumbered, hiff⟩ := SecureWorkspace.removed_in_order hnumbered hdesignates h hindex
      refine ⟨hnumbered, hiff.trans ⟨?_, fun hfollows => hfollows draft h hindex⟩⟩
      rintro hstands found hfound _
      cases h.symm.trans hfound
      exact hstands
    · have hrun : (remove_auth_item index).run b w = w := by
        rw [run, SecureWorkspace.remove_auth_item, h, Option.map_some,
          draft.out_of_range (Nat.not_lt.mp hindex), ← h]
      refine hframe (by rw [hrun]; exact .refl) ?_
      intro found hfound hin
      cases h.symm.trans hfound
      exact absurd hin hindex
  | move_auth_item index direction =>
    by_cases hrange : index < draft.auth_items.length ∧
        HostDraftState.move_target index direction < draft.auth_items.length
    · obtain ⟨hnumbered, hiff⟩ :=
        SecureWorkspace.moved_in_order hnumbered hdesignates h hrange.1 hrange.2
      refine ⟨hnumbered, hiff.trans ⟨?_, fun hfollows => hfollows draft h hrange.1 hrange.2⟩⟩
      rintro hstands found hfound _ _
      cases h.symm.trans hfound
      exact hstands
    · have hrun : (move_auth_item index direction).run b w = w := by
        rw [run, SecureWorkspace.move_auth_item, h, Option.map_some,
          draft.move_out_of_range hrange, ← h]
      refine hframe (by rw [hrun]; exact .refl) ?_
      intro found hfound hin htarget
      cases h.symm.trans hfound
      exact absurd ⟨hin, htarget⟩ hrange
  | set_auth_passphrase_credential index credential_id =>
    exact hframe (hmapped _ (fun draft => draft.marks_set_auth_passphrase index credential_id)
      fun draft => draft.number_set_auth_passphrase_credential index credential_id) trivial
  | attach_key_to_host vault_id key_id encrypted =>
    have hclosed := hnumbered.still_open h
      (SecureWorkspace.turned_attach_key_to_host vault_id key_id encrypted) hsame
    refine hmatch (SecureWorkspace.attached_in_order hnumbered hdesignates
      (Bool.or_eq_false_iff.mp hclosed).1 ?_)
    rw [h]
    exact SecureWorkspace.attach_key_in_order hnumbered hdesignates h key_id encrypted
  | attach_credential_to_host_password vault_id credential_id =>
    have hclosed := hnumbered.still_open h
      (SecureWorkspace.turned_attach_password vault_id credential_id) hsame
    refine hmatch (SecureWorkspace.attached_in_order hnumbered hdesignates hclosed ?_)
    obtain ⟨hnumbered, hdesignates⟩ := hadded w (.password credential_id) hnumbered hdesignates
    exact ⟨(hsection _).numbered hnumbered, (hsection _).designates hdesignates⟩
  | attach_credential_to_host_passphrase vault_id credential_id =>
    have hclosed := hnumbered.still_open h
      (SecureWorkspace.turned_attach_passphrase vault_id credential_id) hsame
    refine hmatch (SecureWorkspace.attached_in_order hnumbered hdesignates hclosed ?_)
    rw [h]
    dsimp only
    split
    · exact ⟨hnumbered, hdesignates⟩
    · rename_i target_index _
      obtain ⟨hnumbered, hdesignates⟩ := SecureWorkspace.selects hnumbered hdesignates h
        (draft.serials_set_passphrase target_index (some credential_id)) rfl target_index
      exact ⟨(hsection _).numbered hnumbered, (hsection _).designates hdesignates⟩
  | generate_ed25519_key_for_secure => exact hmatch (hgenerated _ hsame)
  | generate_rsa_key_for_secure => exact hmatch (hgenerated _ hsame)
  | import_private_key_for_secure vault_id request =>
    exact hmatch (SecureWorkspace.key_created_in_order hnumbered hdesignates h
      (hnumbered.still_open h (SecureWorkspace.turned_key_created _) hsame))
  | edit_host field text =>
    exact hframe (hmapped _ (fun draft => draft.marks_edit field text)
      fun draft => draft.number_edit field text) trivial
  | edit_tunnel field text =>
    exact hframe ⟨rfl, rfl, .inl rfl, rfl, rfl, Nat.le_refl _, Nat.le_refl _⟩ trivial
  | set_tunnel_mode mode =>
    exact hframe ⟨rfl, rfl, .inl rfl, rfl, rfl, Nat.le_refl _, Nat.le_refl _⟩ trivial
  | edit_credential field text =>
    exact hframe ⟨rfl, rfl, .inl rfl, rfl, rfl, Nat.le_refl _, Nat.le_refl _⟩ trivial
  | save_host_draft =>
    exact hframe (SecureWorkspace.saved_host_framed h
      (hnumbered.still_open h SecureWorkspace.turned_save_host hsame)) trivial
  | save_tunnel_draft =>
    exact hframe (SecureWorkspace.saved_tunnel_framed h
      (hnumbered.still_open h SecureWorkspace.turned_save_tunnel hsame)) trivial
  | save_credential_draft =>
    obtain ⟨hnumbered, hiff⟩ :=
      SecureWorkspace.saved_credential_in_order hnumbered hdesignates h hsame
    refine ⟨hnumbered, hiff.trans ⟨?_, fun hfollows => hfollows draft h⟩⟩
    rintro hanswers found hfound
    cases h.symm.trans hfound
    exact hanswers
  | attempt_delete_credential scope_key =>
    exact hframe (SecureWorkspace.attempt_framed h
      (hnumbered.still_open h (SecureWorkspace.turned_attempt_delete _ _ scope_key) hsame)) trivial
  | attempt_delete_private_key scope_key =>
    exact hframe (SecureWorkspace.attempt_framed h
      (hnumbered.still_open h (SecureWorkspace.turned_attempt_delete _ _ scope_key) hsame)) trivial
  | delete_saved_host scope_key =>
    exact hframe (SecureWorkspace.delete_framed h
      (hnumbered.still_open h (SecureWorkspace.turned_delete_saved _ scope_key) hsame)) trivial
  | delete_saved_tunnel scope_key =>
    exact hframe (SecureWorkspace.delete_framed h
      (hnumbered.still_open h (SecureWorkspace.turned_delete_saved _ scope_key) hsame)) trivial
  | apply_vault_snapshot snapshot =>
    exact hframe (SecureWorkspace.framed_apply_vault_snapshot h
      (hnumbered.still_open h (SecureWorkspace.turned_apply_vault_snapshot snapshot) hsame)) trivial

theorem serials_numbered (auths : List HostAuthRef) :
    (numbered 0 auths).map AuthItem.serial = List.range auths.length := by
  unfold numbered
  rw [List.map_map, List.range_eq_range']
  exact List.zipIdx_map_snd 0 auths

theorem followed_draft {draft : HostDraftState} (h : draft ∈ w.followed.host_draft) :
    ∃ before ∈ w.host_draft, draft.serials = List.range before.auth_items.length ∧
      draft.number = 0 ∧ draft.selected_auth = before.selected_auth ∧
      draft.chosen = before.selected_auth.filter fun index => index < before.auth_items.length := by
  obtain ⟨before, hbefore, rfl⟩ := Option.map_eq_some_iff.mp h
  refine ⟨before, hbefore, ?_, rfl, rfl, rfl⟩
  exact (serials_numbered _).trans (by rw [List.length_map])

/-- An index that is noted down with the item at it designates that. -/
theorem follows_noted (index : Option Nat) (length : Nat) :
    (Mark.mk index (index.filter fun index => index < length)).Follows (List.range length) := by
  intro serial hserial hitem p hp
  obtain ⟨hindex, _⟩ := Option.filter_eq_some_iff.mp hitem
  cases hindex.symm.trans hp
  exact List.getElem?_range (List.mem_range.mp hserial)

theorem followed_in_order : w.followed.Numbered ∧ w.followed.Designates := by
  have hlength : ∀ before ∈ w.host_draft, w.followed.ledger.added = before.auth_items.length := by
    intro before hbefore
    change (w.host_draft.elim 0 fun draft => draft.auth_items.length) = _
    rw [Option.mem_def.mp hbefore]
    rfl
  refine ⟨⟨?_, ?_, ?_, ?_, ?_⟩, ⟨?_, ?_, nofun⟩⟩
  · intro draft hdraft
    obtain ⟨_, _, _, hnumber, _⟩ := followed_draft hdraft
    rw [hnumber]
    exact Nat.one_pos
  · intro draft hdraft
    obtain ⟨before, _, hserials, _⟩ := followed_draft hdraft
    rw [hserials]
    exact List.nodup_range
  · intro draft hdraft serial hserial
    obtain ⟨before, hbefore, hserials, _⟩ := followed_draft hdraft
    rw [hlength before hbefore]
    exact List.mem_range.mp (hserials ▸ hserial)
  · intro draft hdraft serial hserial
    obtain ⟨before, hbefore, _, _, _, hchosen⟩ := followed_draft hdraft
    rw [hlength before hbefore]
    rw [hchosen] at hserial
    exact of_decide_eq_true (Option.filter_eq_some_iff.mp hserial).2
  · intro serial hserial
    exact of_decide_eq_true (Option.filter_eq_some_iff.mp hserial).2
  · intro draft hdraft
    obtain ⟨before, _, hserials, _, hselected, hchosen⟩ := followed_draft hdraft
    rw [HostDraftState.selected, hserials, hselected, hchosen]
    exact follows_noted _ _
  · intro draft hdraft
    obtain ⟨before, hbefore, hserials, _⟩ := followed_draft hdraft
    rw [hserials, ← hlength before hbefore]
    exact follows_noted _ _

/-- In a run on one host draft the two indices keep designating their items, and every passphrase
goes to the private key it was asked for, exactly if every operation meets its condition in the state it
starts from. -/
theorem auth_indices_follow_iff (w : SecureWorkspace) (acts : List (Backend × SecureOp)) :
    Always follow SecureWorkspace.Designates w.followed acts ↔
      EveryStep follow (fun w act => act.2.Follows act.1 w) w.followed acts := by
  refine always_iff (K := fun w : SecureWorkspace => w.Numbered ∧ w.Designates) (fun _ h => h.2) ?_
    followed_in_order acts
  rintro w ⟨b, op⟩ w' ⟨hnumbered, hdesignates⟩ hstep
  unfold follow at hstep
  dsimp only at hstep
  split at hstep
  · rename_i hgoes
    cases hstep
    obtain ⟨draft, hdraft⟩ := Option.isSome_iff_exists.mp hgoes.1
    obtain ⟨hnumbered, hiff⟩ := op.in_order hnumbered hdesignates hdraft hgoes.2
    exact ⟨hiff, fun hfollows => ⟨hnumbered, hiff.mpr hfollows⟩⟩
  · cases hstep

end Runs

/-- A host draft with three private keys, the second of which asks for its passphrase. -/
def three_keys : SecureWorkspace :=
  { empty_workspace with
    host_draft := some { HostDraftState.blank 0 with
      vault_id := some "v"
      auth_items := [⟨.privateKey "a" none, 0⟩, ⟨.privateKey "b" none, 1⟩, ⟨.privateKey "c" none, 2⟩]
      selected_auth := some 1 }
    pending_passphrase_auth_index := some 1 }

/-- The first key is removed, and the third is where the second was. -/
theorem removed_before_pending : ¬ ∀ (w : SecureWorkspace) (acts : List (Backend × SecureOp)),
    Always follow SecureWorkspace.Designates w.followed acts := by
  intro h
  have hafter := (h three_keys [(empty_vault, .remove_auth_item 0)]).2 _ rfl
  have hpending := hafter.pending _ rfl 1 (by decide) rfl 1 rfl
  exact absurd hpending (by decide)

end Seance.Ui
