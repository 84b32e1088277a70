import Mathlib.Data.List.DropRight
import Seance.Terminal.Scroll

namespace Seance.Terminal
open Lib

def SessionCommand.delta? : SessionCommand → Option Isize
  | .scrollViewport (.deltaRows delta_rows) => some delta_rows
  | _ => none

theorem SessionCommand.eq_deltaRows {command : SessionCommand} {delta : Isize}
    (h : command.delta? = some delta) : command = .deltaRows delta := by
  unfold SessionCommand.delta? at h
  split at h
  · cases h
    rfl
  · cases h

/-- The burst up to the run of `DeltaRows` it ends with. -/
def before_run (burst : List SessionCommand) : List SessionCommand :=
  burst.rdropWhile fun command => command.delta?.isSome

/-- The deltas of the run the burst ends with, merged the way the compaction merges them. -/
def run_sum (burst : List SessionCommand) : Isize :=
  ((burst.rtakeWhile fun command => command.delta?.isSome).filterMap SessionCommand.delta?).foldl
    Isize.saturating_add ⟨0, Isize.zero_fits⟩

/-- A further `delta` may join a run that started at `v` and sums up to `sum`: it does not turn
back after the sum has left the screen, and the sum is cut only where it reaches the end. -/
structure Merges (v : Viewport) (sum delta : Isize) : Prop where
  carries : Carries (0 : Int) v.max_offset (v.offset + sum.val) delta.val
  reaches : Reaches Isize.MIN.val Isize.MAX.val (0 : Int) v.max_offset v.offset
    (sum.val + delta.val)

theorem scroll_zero (v : Viewport) : v.scroll (.delta ⟨0, by decide⟩) = v := by
  have h := v.moveTo_offset (v.offset + 0)
  have hle := v.offset_le_max_offset
  rw [add_zero, clamp_of_mem (Int.natCast_nonneg _) (by omega)] at h
  exact Viewport.ext rfl rfl (by exact_mod_cast h)

/-- The compaction's merged step against the two steps in turn. -/
theorem scroll_merged_iff (v : Viewport) (sum delta : Isize) :
    v.scroll (.delta (sum.saturating_add delta)) = (v.scroll (.delta sum)).scroll (.delta delta) ↔
      Merges v sum delta := by
  have hle := v.offset_le_max_offset
  have hx : (0 : Int) ≤ v.offset ∧ (v.offset : Int) ≤ v.max_offset := by omega
  have hiff := clamp_merged_iff (Int.natCast_nonneg v.max_offset) hx sum.property delta.property
    (by decide)
  change v.moveTo (v.offset + clamp _ _ (sum.val + delta.val)) =
    (v.moveTo (v.offset + sum.val)).moveTo ((v.moveTo (v.offset + sum.val)).offset + delta.val) ↔ _
  rw [v.moveTo_moveTo, v.moveTo_eq_iff, v.moveTo_offset]
  exact hiff.trans ⟨fun h => ⟨h.1, h.2⟩, fun h => ⟨h.carries, h.reaches⟩⟩

section Bursts

variable (burst : List SessionCommand) (delta_rows : Isize)

theorem before_run_start : before_run burst <+: burst := List.rdropWhile_prefix _ burst

theorem before_run_delta : before_run (burst ++ [.deltaRows delta_rows]) = before_run burst :=
  List.rdropWhile_concat_pos _ _ _ rfl

theorem run_sum_delta :
    run_sum (burst ++ [.deltaRows delta_rows]) = (run_sum burst).saturating_add delta_rows := by
  unfold run_sum
  rw [List.rtakeWhile_concat_pos _ _ _ rfl, List.filterMap_append, List.foldl_append]
  rfl

variable {command : SessionCommand}

theorem before_run_other (h : command.delta? = none) :
    before_run (burst ++ [command]) = burst ++ [command] :=
  List.rdropWhile_concat_neg _ _ _ (by simp [h])

theorem run_sum_other (h : command.delta? = none) :
    run_sum (burst ++ [command]) = ⟨0, by decide⟩ := by
  unfold run_sum
  rw [List.rtakeWhile_concat_neg _ _ _ (by simp [h])]
  rfl

theorem compact_next_other (s : Compacting) (h : command.delta? = none) :
    compact_next s command = (s.1 ++ take_pending s.2 ++ [command], none) := by
  unfold compact_next
  split
  · cases h
  · rfl

theorem compact_other (h : command.delta? = none) :
    compact_scroll_command_burst (burst ++ [command]) =
      compact_scroll_command_burst burst ++ [command] := by
  unfold compact_scroll_command_burst
  rw [List.foldl_append]
  simp only [List.foldl_cons, List.foldl_nil, compact_next_other _ h, take_pending,
    Option.map_none, Option.toList_none, List.append_nil]

/-- Where the compaction loop stands after a burst: the commands before its last run are
compacted, and the run is pending as its sum. -/
theorem foldl_compact_next :
    (burst.foldl compact_next ([], none)).1 = compact_scroll_command_burst (before_run burst) ∧
      (burst.foldl compact_next ([], none)).2.getD ⟨0, by decide⟩ = run_sum burst := by
  induction burst using List.reverseRecOn with
  | nil => exact ⟨rfl, rfl⟩
  | append_singleton burst command ih =>
    rw [List.foldl_append]
    cases h : command.delta? with
    | some delta =>
      obtain rfl := SessionCommand.eq_deltaRows h
      rw [before_run_delta, run_sum_delta, ← ih.2]
      exact ⟨ih.1, rfl⟩
    | none =>
      rw [before_run_other burst h, run_sum_other burst h, compact_other burst h]
      simp only [List.foldl_cons, List.foldl_nil, compact_next_other _ h]
      exact ⟨rfl, rfl⟩

end Bursts

section Offsets

variable (c : ViewportCache) (v : Viewport)

theorem foldl_take_pending (pending : Option Isize) :
    (take_pending pending).foldl (batch_scrolled c) v =
      v.scroll (.delta (pending.getD ⟨0, by decide⟩)) := by
  cases pending with
  | none => exact (scroll_zero v).symm
  | some delta => rfl

/-- The compacted burst plays its beginning, then the last run as one step. -/
theorem foldl_compact (burst : List SessionCommand) :
    (compact_scroll_command_burst burst).foldl (batch_scrolled c) v =
      ((compact_scroll_command_burst (before_run burst)).foldl (batch_scrolled c) v).scroll
        (.delta (run_sum burst)) := by
  have hstate := foldl_compact_next burst
  conv_lhs => unfold compact_scroll_command_burst
  rw [List.foldl_append, foldl_take_pending, hstate.1, hstate.2]

/-- Compacting the burst makes no difference from the viewport `v` on. -/
def Faithful (burst : List SessionCommand) : Prop :=
  (compact_scroll_command_burst burst).foldl (batch_scrolled c) v =
    burst.foldl (batch_scrolled c) v

theorem faithful_delta_iff {burst : List SessionCommand} (hbefore : Faithful c v (before_run burst))
    (hburst : Faithful c v burst) (delta : Isize) :
    Faithful c v (burst ++ [.deltaRows delta]) ↔
      Merges ((before_run burst).foldl (batch_scrolled c) v) (run_sum burst) delta := by
  unfold Faithful at hbefore hburst ⊢
  rw [foldl_compact, before_run_delta, run_sum_delta, hbefore, List.foldl_append, ← hburst,
    foldl_compact, hbefore]
  exact scroll_merged_iff _ _ _

theorem faithful_other {burst : List SessionCommand} {command : SessionCommand}
    (hburst : Faithful c v burst) (h : command.delta? = none) :
    Faithful c v (burst ++ [command]) := by
  unfold Faithful at hburst ⊢
  rw [compact_other burst h, List.foldl_append, List.foldl_append, hburst]

theorem faithful_iff (commands : List SessionCommand) :
    (∀ burst, burst <+: commands → Faithful c v burst) ↔
      ∀ burst delta, burst ++ [.deltaRows delta] <+: commands →
        Merges ((before_run burst).foldl (batch_scrolled c) v) (run_sum burst) delta := by
  constructor
  · intro h burst delta hstarts
    have hburst := (List.prefix_append burst _).trans hstarts
    have hbefore := (before_run_start burst).trans hburst
    exact (faithful_delta_iff c v (h _ hbefore) (h _ hburst) delta).mp (h _ hstarts)
  · intro h burst
    -- shorter beginnings first: a run is compared from its own start
    induction hn : burst.length using Nat.strong_induction_on generalizing burst with
    | _ n ih =>
      intro hstarts
      subst hn
      rcases List.eq_nil_or_concat' burst with rfl | ⟨start, command, rfl⟩
      · rfl
      have hstart := (List.prefix_append start [command]).trans hstarts
      have hlt : start.length < (start ++ [command]).length := by simp
      have hfaithful := ih _ hlt start rfl hstart
      cases hd : command.delta? with
      | none => exact faithful_other c v hfaithful hd
      | some delta =>
        obtain rfl := SessionCommand.eq_deltaRows hd
        have hle := (before_run_start start).length_le
        have hbefore := ih _ (lt_of_le_of_lt hle hlt) (before_run start) rfl
          ((before_run_start start).trans hstart)
        exact (faithful_delta_iff c v hbefore hfaithful delta).mpr (h start delta hstarts)

end Offsets

section Emulator

variable {T R : Type} (G : Ghostty T R) (e : TerminalEmulator T R)

theorem offset_apply_batch_iff (commands others : List SessionCommand) :
    (apply_batch G commands e).offset G = (apply_batch G others e).offset G ↔
      commands.foldl (batch_scrolled e.viewport_cache) (e.viewport G) =
        others.foldl (batch_scrolled e.viewport_cache) (e.viewport G) := by
  rw [← viewport_apply_batch, ← viewport_apply_batch]
  have hc := viewport_apply_batch_screen G commands e
  have ho := viewport_apply_batch_screen G others e
  exact ⟨Viewport.ext (hc.1.trans ho.1.symm) (hc.2.trans ho.2.symm), congrArg Viewport.offset⟩

/-- However a list of commands is cut off into a burst, the compacted burst leaves the offset the
commands leave one by one, exactly when every delta that joins a run merges into it. -/
theorem compaction_keeps_offset_iff (commands : List SessionCommand) :
    (∀ burst, burst <+: commands →
        (apply_batch G (compact_scroll_command_burst burst) e).offset G =
          (apply_batch G burst e).offset G) ↔
      ∀ burst delta, burst ++ [.deltaRows delta] <+: commands →
        Merges ((apply_batch G (before_run burst) e).viewport G) (run_sum burst) delta := by
  simp only [offset_apply_batch_iff, viewport_apply_batch]
  exact faithful_iff e.viewport_cache (e.viewport G) commands

/-- At the top of the screen: five rows up do nothing and three rows down move, while the merged
two rows up do nothing. -/
theorem compaction_drops_step :
    (apply_batch Sample.ghostty
        (compact_scroll_command_burst
          [.deltaRows ⟨-5, by decide⟩, .deltaRows ⟨3, by decide⟩])
        (Sample.emulator 0 (by decide))).offset Sample.ghostty = 0 ∧
      (apply_batch Sample.ghostty [.deltaRows ⟨-5, by decide⟩, .deltaRows ⟨3, by decide⟩]
        (Sample.emulator 0 (by decide))).offset Sample.ghostty = 3 := by
  decide

end Emulator

end Seance.Terminal
