import Mathlib.Algebra.Order.Round
import Mathlib.Data.List.Induction
import Seance.Ui.Scrolling

namespace Seance.Ui.Scrolling
open Terminal

/-- Where a row is scrolled to. -/
inductive Direction
  | older
  | newer
  deriving DecidableEq, Repr

def Direction.opposite : Direction → Direction
  | .older => .newer
  | .newer => .older

def pressed : TerminalMouseButton → Option Direction
  | .wheelUp => some .older
  | .wheelDown => some .newer
  | _ => none

/-- Rows to be scrolled, negative ones towards older content. -/
def units (rows : Int) : List Direction :=
  List.replicate rows.natAbs (if rows < 0 then .older else .newer)

def TerminalScrollCommand.rows : TerminalScrollCommand → List Direction
  | .deltaRows delta => units delta
  | _ => []

inductive WheelTurn
  | wheel (event : ScrollWheelEvent)
  /-- The next frame comes. -/
  | frame

def WheelTurn.op : WheelTurn → ScrollOp
  | .wheel event => .wheel event
  | .frame => .callback 0

/-- The session of an application that tracks the mouse. -/
def tracking (line_height_px accumulated_row_delta : Rat) (active_screen : TerminalScreenKind)
    (presses : List TerminalMouseButton) : SeanceWorkspace where
  session := some { active_screen, mouse_tracking := true }
  line_height_px
  mouse_tracking_scroll := .alwaysAppFirst
  terminal_scroll := { accumulated_row_delta }
  presses

/-- The session of a shell, with its scrollback. -/
def viewport (line_height_px accumulated_row_delta : Rat) (pending_flush_epoch : Nat)
    (flush_scheduled : Bool) (dispatched : List TerminalScrollCommand) : SeanceWorkspace where
  session := some {}
  line_height_px
  terminal_scroll := { accumulated_row_delta, pending_flush_epoch, flush_scheduled }
  next_frame := if flush_scheduled then [pending_flush_epoch] else []
  dispatched

/-- The rows that an application is sent as wheel presses. -/
def application_rows (line_height_px : Rat) (active_screen : TerminalScreenKind)
    (turns : List WheelTurn) : List Direction :=
  ((tracking line_height_px 0 active_screen []).run (turns.map (·.op))).presses.filterMap pressed

/-- The rows that the viewport is scrolled by, with a frame after the last event. -/
def viewport_rows (line_height_px : Rat) (turns : List WheelTurn) : List Direction :=
  ((viewport line_height_px 0 0 false []).run
    ((turns ++ [WheelTurn.frame]).map (·.op))).dispatched.flatMap (·.rows)

/-- The rows of an event, and none for a frame. Too small a delta is no event. -/
def WheelTurn.delta (line_height_px : Rat) : WheelTurn → Option (Option Rat)
  | .frame => some none
  | .wheel event =>
    let delta_rows := row_delta (max line_height_px 1) event.delta
    if |delta_rows| < EPSILON then none else some (some delta_rows)

def deltas (line_height_px : Rat) (turns : List WheelTurn) : List Rat :=
  (turns.filterMap (·.delta line_height_px)).filterMap id

/-- The deltas all have one sign. -/
def OneWay (stretch : List Rat) : Prop := ∀ a ∈ stretch, ∀ b ∈ stretch, 0 < a * b

/-- No stretch of deltas in one direction adds up to a row. -/
def NeverARow (deltas : List Rat) : Prop :=
  ∀ stretch, stretch <:+: deltas → OneWay stretch → |stretch.sum| < 1

/-- The rows that are taken after each delta. -/
def taken_each (accumulated : Rat) : List Rat → List Direction
  | [] => []
  | d :: ds =>
    let (rows, rest) := take_integral_scroll_rows (accumulate_scroll_delta accumulated d)
    units rows ++ taken_each rest ds

/-- The rows that are taken in each frame and in one after the last delta. -/
def taken_in_frames (accumulated : Rat) : List (Option Rat) → List Direction
  | [] => units (trunc accumulated)
  | none :: turns =>
    let (rows, rest) := take_integral_scroll_rows accumulated
    units rows ++ taken_in_frames rest turns
  | some d :: turns => taken_in_frames (accumulate_scroll_delta accumulated d) turns

section Rows

variable {a b d : Rat} {k n : Int} {turns : List (Option Rat)} {ds : List Rat}

theorem units_length (n : Int) : (units n).length = n.natAbs := List.length_replicate

theorem units_eq_nil_iff : units n = [] ↔ n = 0 := by
  rw [← List.length_eq_zero_iff, units_length, Int.natAbs_eq_zero]

theorem units_add (h : 0 ≤ k * n) : units (k + n) = units k ++ units n := by
  rcases lt_trichotomy k 0 with hk | rfl | hk
  · have hn : n ≤ 0 := nonpos_of_mul_nonneg_right h hk
    unfold units
    rw [if_pos hk, if_pos (by omega), show (k + n).natAbs = k.natAbs + n.natAbs by omega,
      List.replicate_add]
    rcases hn.eq_or_lt with rfl | hn
    · rfl
    · rw [if_pos hn]
  · rw [zero_add]
    rfl
  · have hn : 0 ≤ n := nonneg_of_mul_nonneg_right h hk
    unfold units
    rw [if_neg (by omega), if_neg (by omega), if_neg (by omega),
      show (k + n).natAbs = k.natAbs + n.natAbs by omega, List.replicate_add]

/-- Where rows are still to come, a delta drops them with the rest, or goes their way. -/
theorem accumulate_ahead (hd : d ≠ 0) (hk : 0 ≤ a * k) :
    (accumulate_scroll_delta (a + k) d = d ∧ accumulate_scroll_delta a d = d) ∨
      (0 ≤ a * d ∧ 0 ≤ k * d ∧ accumulate_scroll_delta (a + k) d = a + d + k ∧
        accumulate_scroll_delta a d = a + d) := by
  rw [accumulate_scroll_delta_eq hd, accumulate_scroll_delta_eq hd]
  have hsame : 0 ≤ (a * d) * (k * d) := by
    rw [show a * d * (k * d) = a * k * (d * d) by ring]
    exact mul_nonneg hk (mul_self_nonneg d)
  by_cases hdrops : (a + k) * d < 0
  · refine .inl ⟨if_pos hdrops, ?_⟩
    split
    · rfl
    · rename_i had
      rw [add_mul] at hdrops
      have hkd : k * d < 0 := by linarith
      have hzero : a * d = 0 :=
        le_antisymm (nonpos_of_mul_nonneg_left hsame hkd) (not_lt.mp had)
      rw [(mul_eq_zero_iff_right hd).mp hzero, zero_add]
  · have hsum : 0 ≤ a * d + k * d := (not_lt.mp hdrops).trans_eq (add_mul _ _ _)
    have had : 0 ≤ a * d := by
      by_contra had
      linarith [nonpos_of_mul_nonneg_right hsame (not_le.mp had)]
    have hkd : 0 ≤ k * d := by
      by_contra hkd
      linarith [nonpos_of_mul_nonneg_left hsame (not_le.mp hkd)]
    rw [if_neg hdrops, if_neg (not_lt.mpr had)]
    exact .inr ⟨had, hkd, add_right_comm _ _ _, rfl⟩

/-- Two numbers that lie the way of a third lie the same way. -/
theorem mul_nonneg_of_along {x y : Rat} (hd : d ≠ 0) (hx : 0 ≤ x * d) (hy : 0 ≤ y * d) :
    0 ≤ x * y := by
  have hprod : 0 ≤ x * y * (d * d) := by
    rw [show x * y * (d * d) = x * d * (y * d) by ring]
    exact mul_nonneg hx hy
  exact nonneg_of_mul_nonneg_left hprod (mul_self_pos.mpr hd)

/-- Taken in frames, the rows are those taken after each delta, with `k` that are still to come,
unless some are lost when the direction changes. -/
theorem taken_in_frames_or (ha : |a| < 1) (hk : 0 ≤ a * k)
    (hturns : ∀ d, some d ∈ turns → d ≠ 0) :
    taken_in_frames (a + k) turns = units k ++ taken_each a (turns.filterMap id) ∨
      (taken_in_frames (a + k) turns).length <
        (units k ++ taken_each a (turns.filterMap id)).length := by
  induction turns generalizing a k with
  | nil =>
    refine .inl ?_
    rw [taken_in_frames, trunc_add_int ha hk]
    exact (List.append_nil _).symm
  | cons turn turns ih =>
    have hturns' : ∀ d, some d ∈ turns → d ≠ 0 :=
      fun d hd => hturns d (List.mem_cons_of_mem _ hd)
    cases turn with
    | none =>
      have htaken : taken_in_frames (a + k) (none :: turns) =
          units k ++ taken_in_frames (a + (0 : Int)) turns := by
        simp only [taken_in_frames, take_integral_scroll_rows, trunc_add_int ha hk,
          add_sub_cancel_right, Int.cast_zero, add_zero]
      rw [htaken]
      change _ = units k ++ taken_each a (turns.filterMap id) ∨
        _ < (units k ++ taken_each a (turns.filterMap id)).length
      rcases ih ha (k := 0) (by rw [Int.cast_zero, mul_zero]) hturns' with heq | hlt
      · exact .inl (congrArg (units k ++ ·) heq)
      · rw [List.length_append, List.length_append]
        exact .inr (Nat.add_lt_add_left hlt _)
    | some d =>
      have hd : d ≠ 0 := hturns d List.mem_cons_self
      have heach : ∀ x, accumulate_scroll_delta a d = x →
          taken_each a ((some d :: turns).filterMap id) =
            units (trunc x) ++ taken_each (x - trunc x) (turns.filterMap id) := by
        rintro x rfl
        rfl
      change taken_in_frames (accumulate_scroll_delta (a + k) d) turns = _ ∨
        (taken_in_frames (accumulate_scroll_delta (a + k) d) turns).length < _
      rcases accumulate_ahead hd hk with ⟨hahead, hbehind⟩ | ⟨had, hkd, hahead, hbehind⟩
      · obtain ⟨hrows, hleft⟩ := trunc_along hd (mul_self_nonneg d)
        have hturn := ih (abs_sub_trunc_lt d) (mul_nonneg_of_along hd hleft hrows) hturns'
        rw [sub_add_cancel] at hturn
        rw [hahead, heach d hbehind]
        by_cases hzero : k = 0
        · rw [hzero]
          exact hturn
        · refine .inr ?_
          have hpos : 0 < (units k).length := by
            rw [units_length]
            omega
          rw [List.length_append]
          rcases hturn with heq | hlt
          · rw [heq]
            omega
          · omega
      · have hadd : 0 ≤ (a + d) * d := by
          rw [add_mul]
          exact add_nonneg had (mul_self_nonneg d)
        obtain ⟨hrows, hleft⟩ := trunc_along hd hadd
        have hboth : 0 ≤ ((k + trunc (a + d) : Int) : Rat) * d := by
          rw [Int.cast_add, add_mul]
          exact add_nonneg hkd hrows
        have hway : 0 ≤ k * trunc (a + d) := by
          have hcast := mul_nonneg_of_along hd hkd hrows
          exact_mod_cast hcast
        have hturn := ih (abs_sub_trunc_lt (a + d)) (mul_nonneg_of_along hd hleft hboth) hturns'
        rw [show a + d - trunc (a + d) + ((k + trunc (a + d) : Int) : Rat) = a + d + k by
          push_cast
          ring, units_add hway, List.append_assoc] at hturn
        rw [hahead, heach (a + d) hbehind]
        exact hturn

/-- Nothing is taken exactly if what is accumulated never comes to a row. -/
theorem taken_each_eq_nil_iff (ha : |a| < 1) : taken_each a ds = [] ↔
    ∀ start, start <+: ds → |start.foldl accumulate_scroll_delta a| < 1 := by
  induction ds generalizing a with
  | nil =>
    refine ⟨fun _ start hstart => ?_, fun _ => rfl⟩
    rw [List.prefix_nil.mp hstart]
    exact ha
  | cons d ds ih =>
    change units (trunc (accumulate_scroll_delta a d)) ++ taken_each _ ds = [] ↔ _
    rw [List.append_eq_nil_iff, units_eq_nil_iff, trunc_eq_zero_iff]
    constructor
    · rintro ⟨hd, hds⟩ start hstart
      rw [trunc_eq_zero_iff.mpr hd, Int.cast_zero, sub_zero, ih hd] at hds
      rcases List.prefix_cons_iff.mp hstart with rfl | ⟨start, rfl, hrest⟩
      · exact ha
      · exact hds start hrest
    · intro h
      have hd : |accumulate_scroll_delta a d| < 1 := h [d] ⟨ds, rfl⟩
      rw [trunc_eq_zero_iff.mpr hd, Int.cast_zero, sub_zero, ih hd]
      exact ⟨hd, fun start hstart => h (d :: start) ((List.prefix_cons_inj d).mpr hstart)⟩

theorem sum_along {stretch : List Rat} (h : ∀ e ∈ stretch, 0 < e * d) :
    0 ≤ stretch.sum * d ∧ (stretch ≠ [] → 0 < stretch.sum * d) := by
  induction stretch with
  | nil => exact ⟨(zero_mul d).ge, fun hne => absurd rfl hne⟩
  | cons e stretch ih =>
    obtain ⟨he, hstretch⟩ := List.forall_mem_cons.mp h
    have hpos : 0 < (e :: stretch).sum * d := by
      rw [List.sum_cons, add_mul]
      exact add_pos_of_pos_of_nonneg he (ih hstretch).1
    exact ⟨hpos.le, fun _ => hpos⟩

theorem OneWay.singleton (hd : d ≠ 0) : OneWay [d] := by
  intro a ha b hb
  rw [List.mem_singleton.mp ha, List.mem_singleton.mp hb]
  exact mul_self_pos.mpr hd

theorem OneWay.shorter {stretch : List Rat} (h : OneWay (stretch ++ [d])) :
    OneWay stretch ∧ 0 ≤ stretch.sum * d := by
  have hd : d ∈ stretch ++ [d] := List.mem_append_right _ List.mem_cons_self
  have hleft : ∀ e ∈ stretch, e ∈ stretch ++ [d] := fun e he => List.mem_append_left _ he
  exact ⟨fun a ha b hb => h a (hleft a ha) b (hleft b hb),
    (sum_along fun e he => h e (hleft e he) d hd).1⟩

theorem OneWay.longer {stretch : List Rat} (h : OneWay stretch) (hd : d ≠ 0)
    (hsum : 0 ≤ stretch.sum * d) : OneWay (stretch ++ [d]) := by
  have hway : ∀ e ∈ stretch, 0 < e * d := by
    intro e he
    have hpos : 0 < stretch.sum * e :=
      (sum_along fun b hb => h b hb e he).2 (List.ne_nil_of_mem he)
    obtain ⟨htotal, he0⟩ := mul_ne_zero_iff.mp hpos.ne'
    rw [mul_comm] at hsum
    exact (mul_nonneg_of_along htotal ((mul_comm _ _).trans_ge hpos.le) hsum).lt_of_ne
      (mul_ne_zero he0 hd).symm
  intro a ha b hb
  rcases List.mem_append.mp ha with ha | ha
  · rcases List.mem_append.mp hb with hb | hb
    · exact h a ha b hb
    · rw [List.mem_singleton.mp hb]
      exact hway a ha
  · rw [List.mem_singleton.mp ha]
    rcases List.mem_append.mp hb with hb | hb
    · rw [mul_comm]
      exact hway b hb
    · rw [List.mem_singleton.mp hb]
      exact mul_self_pos.mpr hd

/-- What is accumulated is the sum of the longest stretch in one direction that comes last. -/
theorem accumulated_stretch (hds : ∀ d ∈ ds, d ≠ 0) :
    (∃ stretch, stretch <:+ ds ∧ OneWay stretch ∧
        stretch.sum = ds.foldl accumulate_scroll_delta 0) ∧
      ∀ stretch, stretch <:+ ds → OneWay stretch →
        |stretch.sum| ≤ |ds.foldl accumulate_scroll_delta 0| ∧
          0 ≤ stretch.sum * ds.foldl accumulate_scroll_delta 0 := by
  induction ds using List.reverseRecOn with
  | nil =>
    refine ⟨⟨[], List.suffix_refl _, nofun, rfl⟩, fun stretch h _ => ?_⟩
    rw [List.suffix_nil.mp h]
    exact ⟨le_refl _, (zero_mul _).ge⟩
  | append_singleton ds d ih =>
    obtain ⟨hds', hlast⟩ := List.forall_mem_append.mp hds
    have hd : d ≠ 0 := hlast d List.mem_cons_self
    obtain ⟨⟨s, ⟨before, hs⟩, hone, hsum⟩, hbound⟩ := ih hds'
    rw [List.foldl_concat, accumulate_scroll_delta_eq hd]
    generalize ds.foldl accumulate_scroll_delta 0 = total at *
    split
    · rename_i hdrops
      refine ⟨⟨[d], List.suffix_append ds [d], OneWay.singleton hd, List.sum_singleton⟩,
        fun stretch h hway => ?_⟩
      rcases List.suffix_concat_iff.mp h with rfl | ⟨stretch, rfl, hsuffix⟩
      · exact ⟨abs_zero.trans_le (abs_nonneg d), (zero_mul d).ge⟩
      · -- the direction has changed, so the stretch starts with the delta
        obtain ⟨hway', hsame⟩ := hway.shorter
        have hzero : stretch.sum = 0 := by
          by_contra hne
          have hwith := (hbound stretch hsuffix hway').2
          rw [mul_comm] at hwith hsame
          exact absurd (mul_nonneg_of_along hne hwith hsame) (not_le.mpr hdrops)
        rw [List.sum_append, List.sum_singleton, hzero, zero_add]
        exact ⟨le_refl _, mul_self_nonneg d⟩
    · rename_i halong
      have halong := not_lt.mp halong
      refine ⟨⟨s ++ [d], ⟨before, by rw [← hs, List.append_assoc]⟩, ?_, ?_⟩,
        fun stretch h hway => ?_⟩
      · exact hone.longer hd (hsum ▸ halong)
      · rw [List.sum_append, List.sum_singleton, hsum]
      · rcases List.suffix_concat_iff.mp h with rfl | ⟨stretch, rfl, hsuffix⟩
        · exact ⟨abs_zero.trans_le (abs_nonneg _), (zero_mul _).ge⟩
        · obtain ⟨hway', hsame⟩ := hway.shorter
          obtain ⟨hle, hwith⟩ := hbound stretch hsuffix hway'
          rw [List.sum_append, List.sum_singleton]
          constructor
          · rw [(abs_add_eq_add_abs_iff _ _).mpr (mul_nonneg_iff.mp halong)]
            exact (abs_add_le _ _).trans (add_le_add_left hle _)
          · have hsquare := mul_self_nonneg d
            rw [add_mul, mul_add, mul_add, mul_comm d total]
            linarith

theorem taken_each_never (hds : ∀ d ∈ ds, d ≠ 0) : taken_each 0 ds = [] ↔ NeverARow ds := by
  rw [taken_each_eq_nil_iff (abs_zero.trans_lt one_pos)]
  have hnonzero : ∀ start, start <+: ds → ∀ d ∈ start, d ≠ 0 :=
    fun start hstart d hd => hds d (hstart.subset hd)
  constructor
  · intro h stretch hstretch hway
    obtain ⟨start, hsuffix, hstart⟩ := List.infix_iff_suffix_prefix.mp hstretch
    exact ((accumulated_stretch (hnonzero start hstart)).2 stretch hsuffix hway).1.trans_lt
      (h start hstart)
  · intro h start hstart
    obtain ⟨stretch, hsuffix, hway, hsum⟩ := (accumulated_stretch (hnonzero start hstart)).1
    rw [← hsum]
    exact h stretch (hsuffix.isInfix.trans hstart.isInfix) hway

end Rows

section Routes

variable {line_height_px : Rat} {active_screen : TerminalScreenKind} {turns : List WheelTurn}

/-- A press of the wheel is the other way than the row. -/
theorem pressed_units (rows : Int) :
    (List.replicate rows.natAbs
      (if rows > 0 then TerminalMouseButton.wheelUp else .wheelDown)).filterMap pressed =
        (units rows).map .opposite := by
  unfold units
  rw [List.map_replicate]
  rcases lt_trichotomy rows 0 with h | rfl | h
  · rw [if_neg (by omega), if_pos h, List.filterMap_replicate]
    rfl
  · rfl
  · rw [if_pos h, if_neg (by omega), List.filterMap_replicate]
    rfl

theorem tracking_wheel (accumulated : Rat) (presses : List TerminalMouseButton)
    (event : ScrollWheelEvent) :
    (tracking line_height_px accumulated active_screen presses).step (.wheel event) =
      if |row_delta (max line_height_px 1) event.delta| < EPSILON then
        tracking line_height_px accumulated active_screen presses
      else
        (tracking line_height_px accumulated active_screen presses).press_wheel
          (accumulate_scroll_delta accumulated
            (row_delta (max line_height_px 1) event.delta)) := by
  cases active_screen with
  | primary => rfl
  | alternate => rfl

theorem tracking_run (accumulated : Rat) (presses : List TerminalMouseButton)
    (turns : List WheelTurn) :
    ((tracking line_height_px accumulated active_screen presses).run
        (turns.map (·.op))).presses.filterMap pressed =
      presses.filterMap pressed ++
        (taken_each accumulated (deltas line_height_px turns)).map .opposite := by
  induction turns generalizing accumulated presses with
  | nil => exact (List.append_nil _).symm
  | cons turn turns ih =>
    cases turn with
    | frame => exact ih accumulated presses
    | wheel event =>
      change ((SeanceWorkspace.step _ (.wheel event)).run (turns.map (·.op))).presses.filterMap
        pressed = _
      rw [tracking_wheel]
      unfold deltas
      rw [List.filterMap_cons]
      dsimp only [WheelTurn.delta]
      split
      · exact ih accumulated presses
      · rw [List.filterMap_cons]
        dsimp only [id, taken_each, take_integral_scroll_rows]
        rw [List.map_append, ← pressed_units, ← List.append_assoc, ← List.filterMap_append]
        exact ih _ _

theorem viewport_wheel (accumulated : Rat) (epoch : Nat) (scheduled : Bool)
    (dispatched : List TerminalScrollCommand) (event : ScrollWheelEvent) :
    (viewport line_height_px accumulated epoch scheduled dispatched).step (.wheel event) =
      if |row_delta (max line_height_px 1) event.delta| < EPSILON then
        viewport line_height_px accumulated epoch scheduled dispatched
      else
        viewport line_height_px (accumulate_scroll_delta accumulated
            (row_delta (max line_height_px 1) event.delta))
          (if scheduled then epoch else (epoch + 1) % 2 ^ 64) true dispatched := by
  cases scheduled with
  | true => rfl
  | false => rfl

theorem viewport_frame (accumulated : Rat) (epoch : Nat)
    (dispatched : List TerminalScrollCommand) :
    (viewport line_height_px accumulated epoch true dispatched).step (.callback 0) =
      viewport line_height_px (accumulated - trunc accumulated) epoch false
        (dispatched ++ if trunc accumulated ≠ 0 then [.deltaRows (trunc accumulated)] else []) := by
  change SeanceWorkspace.flush_scroll_batch epoch _ = _
  exact if_neg (not_not.mpr rfl)

theorem dispatched_rows (rows : Int) :
    (if rows ≠ 0 then [TerminalScrollCommand.deltaRows rows] else []).flatMap (·.rows) =
      units rows := by
  split
  · exact List.append_nil _
  · rename_i hzero
    rw [not_not.mp hzero]
    rfl

theorem viewport_run (accumulated : Rat) (epoch : Nat) (scheduled : Bool)
    (dispatched : List TerminalScrollCommand) (hwaits : scheduled = false → |accumulated| < 1)
    (turns : List WheelTurn) :
    ((viewport line_height_px accumulated epoch scheduled dispatched).run
        ((turns ++ [WheelTurn.frame]).map (·.op))).dispatched.flatMap (·.rows) =
      dispatched.flatMap (·.rows) ++
        taken_in_frames accumulated (turns.filterMap (·.delta line_height_px)) := by
  induction turns generalizing accumulated epoch scheduled dispatched with
  | nil =>
    change (SeanceWorkspace.step _ (.callback 0)).dispatched.flatMap (·.rows) = _
    cases scheduled with
    | true =>
      rw [viewport_frame]
      change (dispatched ++ _).flatMap (·.rows) = _
      rw [List.flatMap_append, dispatched_rows]
      rfl
    | false =>
      rw [List.filterMap_nil, taken_in_frames, trunc_eq_zero_iff.mpr (hwaits rfl)]
      exact (List.append_nil _).symm
  | cons turn turns ih =>
    cases turn with
    | frame =>
      change ((SeanceWorkspace.step _ (.callback 0)).run
        ((turns ++ [WheelTurn.frame]).map (·.op))).dispatched.flatMap (·.rows) =
          dispatched.flatMap (·.rows) ++ (units (trunc accumulated) ++
            taken_in_frames (accumulated - trunc accumulated)
              (turns.filterMap (·.delta line_height_px)))
      cases scheduled with
      | true =>
        rw [viewport_frame, ih _ _ _ _ fun _ => abs_sub_trunc_lt _, List.flatMap_append,
          dispatched_rows, List.append_assoc]
      | false =>
        rw [trunc_eq_zero_iff.mpr (hwaits rfl), Int.cast_zero, sub_zero]
        exact ih _ _ _ _ hwaits
    | wheel event =>
      change ((SeanceWorkspace.step _ (.wheel event)).run
        ((turns ++ [WheelTurn.frame]).map (·.op))).dispatched.flatMap (·.rows) = _
      rw [viewport_wheel, List.filterMap_cons]
      dsimp only [WheelTurn.delta]
      split
      · exact ih _ _ _ _ hwaits
      · exact ih _ _ _ _ fun h => by cases h

theorem delta_ne_zero {d : Rat} (h : some d ∈ turns.filterMap (·.delta line_height_px)) :
    d ≠ 0 := by
  obtain ⟨turn, _, hturn⟩ := List.mem_filterMap.mp h
  rintro rfl
  cases turn with
  | frame => cases hturn
  | wheel event =>
    dsimp only [WheelTurn.delta] at hturn
    split at hturn
    · cases hturn
    · rename_i hlarge
      rw [Option.some.inj (Option.some.inj hturn)] at hlarge
      exact hlarge (abs_zero.trans_lt (by decide +kernel))

theorem opposite_ne {rows : List Direction} (h : rows ≠ []) : rows.map .opposite ≠ rows := by
  cases rows with
  | nil => exact absurd rfl h
  | cons row rows =>
    intro heq
    cases row with
    | older => cases (List.cons.inj heq).1
    | newer => cases (List.cons.inj heq).1

end Routes

/-- An application is sent the rows that the viewport would be scrolled by, each in its
direction, exactly if there are none: no stretch of events in one direction adds up to a row. -/
theorem wheel_routes_agree_iff (line_height_px : Rat) (active_screen : TerminalScreenKind)
    (turns : List WheelTurn) :
    application_rows line_height_px active_screen turns = viewport_rows line_height_px turns ↔
      NeverARow (deltas line_height_px turns) := by
  have hnonzero : ∀ d ∈ deltas line_height_px turns, d ≠ 0 := by
    intro d hd
    obtain ⟨delta, hdelta, rfl⟩ := List.mem_filterMap.mp hd
    exact delta_ne_zero hdelta
  have hframes := taken_in_frames_or (a := 0) (k := 0) (abs_zero.trans_lt one_pos)
    (zero_mul _).ge fun d (hd : some d ∈ turns.filterMap (·.delta line_height_px)) =>
      delta_ne_zero hd
  rw [Int.cast_zero, add_zero] at hframes
  rw [← taken_each_never hnonzero]
  unfold application_rows viewport_rows
  rw [tracking_run, viewport_run _ _ _ _ fun _ => abs_zero.trans_lt one_pos, List.filterMap_nil,
    List.flatMap_nil, List.nil_append, List.nil_append]
  change taken_in_frames 0 _ = taken_each 0 (deltas line_height_px turns) ∨
    _ < (taken_each 0 (deltas line_height_px turns)).length at hframes
  constructor
  · intro heq
    by_contra hne
    rcases hframes with hsame | hlost
    · exact opposite_ne hne (heq.trans hsame)
    · rw [← heq, List.length_map] at hlost
      exact absurd hlost (Nat.lt_irrefl _)
  · intro hnil
    rcases hframes with hsame | hlost
    · rw [hsame, hnil]
      rfl
    · rw [hnil] at hlost
      cases hlost

/-- The wheel is turned towards older content by two lines. -/
theorem wheel_reversed : ¬ ∀ (line_height_px : Rat) (active_screen : TerminalScreenKind)
    (turns : List WheelTurn),
    application_rows line_height_px active_screen turns = viewport_rows line_height_px turns := by
  intro h
  exact absurd (h 16 .alternate [.wheel ⟨.lines 2, false⟩]) (by decide +kernel)

end Seance.Ui.Scrolling
