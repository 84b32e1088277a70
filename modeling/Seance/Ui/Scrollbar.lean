import Seance.Lib.Clamp
import Seance.Ui.Scrolling

namespace Seance.Ui.Scrolling
open Lib Terminal

def GUTTER_WIDTH_PX : Rat := 14
def TRACK_WIDTH_PX : Rat := 6
def ACTIVE_THUMB_WIDTH_PX : Rat := 8
def RIGHT_INSET_PX : Rat := 1
def VERTICAL_INSET_PX : Rat := 6
def MIN_THUMB_HEIGHT_PX : Rat := 36

structure TerminalScrollbarLayout where
  gutter_left_px : Rat
  gutter_top_px : Rat
  gutter_width_px : Rat
  gutter_height_px : Rat
  track_left_px : Rat
  track_top_px : Rat
  track_width_px : Rat
  track_height_px : Rat
  thumb_top_px : Rat
  thumb_height_px : Rat
  max_offset_rows : Nat
  deriving DecidableEq

inductive TerminalScrollbarHit
  | track
  | thumb
  deriving DecidableEq, Repr

structure TerminalScrollbarDragState where
  grab_offset_y_px : Rat
  max_offset_rows : Nat
  thumb_height_px : Rat
  track_top_px : Rat
  track_height_px : Rat
  deriving DecidableEq

/-- `f32::round`, half of one away from zero. -/
def round_away (x : Rat) : Int := if x < 0 then ⌈x - 1 / 2⌉ else ⌊x + 1 / 2⌋

namespace TerminalScrollbarLayout

def new (scrollbar : TerminalScrollbarState) (geometry : TerminalGeometry) :
    Option TerminalScrollbarLayout :=
  if scrollbar.total_rows ≤ scrollbar.visible_rows then none
  else
    let height_px : Rat := max geometry.pixel_size.height_px 1
    let width_px : Rat := max geometry.pixel_size.width_px 1
    let gutter_height_px := max (height_px - VERTICAL_INSET_PX * 2) 0
    if gutter_height_px ≤ 0 then none
    else
      let max_offset_rows := scrollbar.total_rows - scrollbar.visible_rows
      let total_rows : Rat := (max (max scrollbar.total_rows scrollbar.visible_rows) 1 : Nat)
      let visible_ratio := scrollbar.visible_rows / total_rows
      let thumb_height_px :=
        min (max (gutter_height_px * visible_ratio) MIN_THUMB_HEIGHT_PX) gutter_height_px
      let thumb_travel_px := max (gutter_height_px - thumb_height_px) 0
      let offset_ratio : Rat :=
        if max_offset_rows = 0 then 0
        else clamp 0 1 ((min scrollbar.offset_rows max_offset_rows : Nat) / max_offset_rows)
      some
        { gutter_left_px := width_px
          gutter_top_px := VERTICAL_INSET_PX
          gutter_width_px := GUTTER_WIDTH_PX
          gutter_height_px
          track_left_px :=
            max (width_px + GUTTER_WIDTH_PX - RIGHT_INSET_PX - TRACK_WIDTH_PX) width_px
          track_top_px := VERTICAL_INSET_PX
          track_width_px := TRACK_WIDTH_PX
          track_height_px := gutter_height_px
          thumb_top_px := VERTICAL_INSET_PX + thumb_travel_px * offset_ratio
          thumb_height_px
          max_offset_rows }

variable (layout : TerminalScrollbarLayout)

def thumb_left_px (width_px : Rat) : Rat :=
  max (layout.gutter_left_px + layout.gutter_width_px - RIGHT_INSET_PX - width_px)
    layout.gutter_left_px

/-- `Rect::contains` -/
def within (left_px top_px width_px height_px x y : Rat) : Bool :=
  x ≥ left_px && x ≤ left_px + width_px && y ≥ top_px && y ≤ top_px + height_px

def hit_test (x y : Rat) : Option TerminalScrollbarHit :=
  if within (layout.thumb_left_px ACTIVE_THUMB_WIDTH_PX) layout.thumb_top_px
      ACTIVE_THUMB_WIDTH_PX layout.thumb_height_px x y then some .thumb
  else if within layout.gutter_left_px layout.gutter_top_px layout.gutter_width_px
      layout.gutter_height_px x y then some .track
  else none

def center_grab_offset_y_px : Rat := layout.thumb_height_px * (1 / 2)

def drag_state (grab_offset_y_px : Rat) : TerminalScrollbarDragState where
  grab_offset_y_px := clamp 0 layout.thumb_height_px grab_offset_y_px
  max_offset_rows := layout.max_offset_rows
  thumb_height_px := layout.thumb_height_px
  track_top_px := layout.track_top_px
  track_height_px := layout.track_height_px

end TerminalScrollbarLayout

namespace TerminalScrollbarDragState

variable (drag : TerminalScrollbarDragState)

/-- How far the thumb can go. -/
def thumb_travel_px : Rat := max (drag.track_height_px - drag.thumb_height_px) 0

def offset_for_pointer_y (pointer_y_px : Rat) : Nat :=
  if drag.max_offset_rows = 0 then 0
  else
    let max_thumb_top_px :=
      max (drag.track_top_px + drag.track_height_px - drag.thumb_height_px) drag.track_top_px
    let thumb_top_px :=
      clamp drag.track_top_px max_thumb_top_px (pointer_y_px - drag.grab_offset_y_px)
    if drag.thumb_travel_px ≤ EPSILON then 0
    else
      let ratio := clamp 0 1 ((thumb_top_px - drag.track_top_px) / drag.thumb_travel_px)
      (round_away (ratio * drag.max_offset_rows)).toNat

end TerminalScrollbarDragState

structure TerminalScrollbarMouseDownOutcome where
  command : Option TerminalScrollCommand
  drag_state : TerminalScrollbarDragState

def terminal_scrollbar_mouse_down_outcome (layout : TerminalScrollbarLayout)
    (local_x local_y : Rat) : Option TerminalScrollbarMouseDownOutcome :=
  (layout.hit_test local_x local_y).map fun
    | .thumb => ⟨none, layout.drag_state (local_y - layout.thumb_top_px)⟩
    | .track =>
      let drag_state := layout.drag_state layout.center_grab_offset_y_px
      ⟨some (.setOffsetRows (drag_state.offset_for_pointer_y local_y)), drag_state⟩

def terminal_scrollbar_drag_command (drag_state : TerminalScrollbarDragState) (local_y : Rat) :
    TerminalScrollCommand :=
  .setOffsetRows (drag_state.offset_for_pointer_y local_y)

section Rows

variable {x s : Rat} {rows : Nat}

theorem round_away_of_nonneg (h : 0 ≤ x) : round_away x = ⌊x + 1 / 2⌋ := if_neg (not_lt.mpr h)

/-- All rows that are moved a little are rounded back exactly if it is less than half a row down,
and no more than half a row up. -/
theorem rounds_back_iff (hrows : 0 < rows) :
    (∀ offset : Nat, offset ≤ rows →
      (⌊clamp 0 (rows : Rat) (offset + s) + 1 / 2⌋).toNat = offset) ↔
        -(1 / 2) ≤ s ∧ s < 1 / 2 := by
  have hone : (1 : Rat) ≤ rows := Nat.one_le_cast.mpr hrows
  have hclamp : ∀ x : Rat, clamp 0 (rows : Rat) x ≤ max 0 x :=
    fun x => max_le_max_left 0 (min_le_right _ _)
  have hround : ∀ (offset : Nat) (x : Rat), 0 ≤ x →
      ((⌊x + 1 / 2⌋).toNat = offset ↔ offset - 1 / 2 ≤ x ∧ x < offset + 1 / 2) := by
    intro offset x hx
    have hfloor : 0 ≤ ⌊x + 1 / 2⌋ := Int.floor_nonneg.mpr (by linarith)
    have hcast : (⌊x + 1 / 2⌋).toNat = offset ↔ ⌊x + 1 / 2⌋ = (offset : Int) := by omega
    rw [hcast, Int.floor_eq_iff, Int.cast_natCast]
    constructor
    · rintro ⟨hlow, hhigh⟩
      exact ⟨by linarith, by linarith⟩
    · rintro ⟨hlow, hhigh⟩
      exact ⟨by linarith, by linarith⟩
  constructor
  · intro h
    have hfirst := (hround 0 _ (le_clamp _ _ _)).mp (h 0 (Nat.zero_le _))
    have hlast := (hround rows _ (le_clamp _ _ _)).mp (h rows (Nat.le_refl _))
    constructor
    · by_contra hup
      have hlt := hlast.1.trans (hclamp _)
      rcases le_max_iff.mp hlt with hle | hle
      · linarith
      · linarith
    · by_contra hdown
      have hhalf : 1 / 2 ≤ clamp 0 (rows : Rat) ((0 : Nat) + s) :=
        le_max_of_le_right (le_min (by linarith) (by
          rw [Nat.cast_zero]
          linarith))
      have hlt := hfirst.2
      rw [Nat.cast_zero] at hlt hhalf
      linarith
  · rintro ⟨hup, hdown⟩ offset hoffset
    have hle : (offset : Rat) ≤ rows := Nat.cast_le.mpr hoffset
    have hnonneg : (0 : Rat) ≤ offset := Nat.cast_nonneg offset
    refine (hround offset _ (le_clamp _ _ _)).mpr ⟨?_, ?_⟩
    · exact le_max_of_le_right (le_min (by linarith) (by linarith))
    · exact (hclamp _).trans_lt (max_lt (by linarith) (by linarith))

end Rows

namespace TerminalScrollbarDragState

variable {drag : TerminalScrollbarDragState}

/-- A pointer is at a row, or a fraction of one, by what the thumb has gone of its way. -/
theorem offset_eq (htravel : EPSILON < drag.thumb_travel_px) (pointer_y_px : Rat) :
    drag.offset_for_pointer_y pointer_y_px =
      (⌊clamp 0 (drag.max_offset_rows : Rat)
        ((pointer_y_px - drag.grab_offset_y_px - drag.track_top_px) / drag.thumb_travel_px *
          drag.max_offset_rows) + 1 / 2⌋).toNat := by
  have hpos : 0 < drag.thumb_travel_px := lt_trans (by decide +kernel) htravel
  have hrows : (0 : Rat) ≤ drag.max_offset_rows := Nat.cast_nonneg _
  have hend : max (drag.track_top_px + drag.track_height_px - drag.thumb_height_px)
      drag.track_top_px = drag.track_top_px + drag.thumb_travel_px := by
    unfold thumb_travel_px
    rw [← max_add_add_left, add_zero, add_sub_assoc]
  have hratio : ∀ x : Rat, (clamp drag.track_top_px (drag.track_top_px + drag.thumb_travel_px) x -
      drag.track_top_px) / drag.thumb_travel_px =
        clamp 0 1 ((x - drag.track_top_px) / drag.thumb_travel_px) := by
    intro x
    rw [clamp_sub, clamp_div _ _ _ hpos.le, sub_self, add_sub_cancel_left, zero_div, div_self hpos.ne']
  unfold offset_for_pointer_y
  split
  · rename_i hzero
    rw [hzero, Nat.cast_zero, mul_zero, clamp_of_mem (le_refl _) (le_refl _)]
    decide +kernel
  · dsimp only
    rw [if_neg (not_le.mpr htravel), hend, hratio,
      clamp_of_mem (le_clamp _ _ _) (clamp_le zero_le_one _), clamp_mul _ _ _ hrows, zero_mul, one_mul,
      round_away_of_nonneg (le_clamp _ _ _)]

theorem offset_le (drag : TerminalScrollbarDragState) (pointer_y_px : Rat) :
    drag.offset_for_pointer_y pointer_y_px ≤ drag.max_offset_rows := by
  by_cases htravel : EPSILON < drag.thumb_travel_px
  · rw [offset_eq htravel]
    have hend : clamp 0 (drag.max_offset_rows : Rat)
        ((pointer_y_px - drag.grab_offset_y_px - drag.track_top_px) / drag.thumb_travel_px *
          drag.max_offset_rows) ≤ drag.max_offset_rows := clamp_le (Nat.cast_nonneg _) _
    refine Int.toNat_le.mpr (Int.lt_add_one_iff.mp (Int.floor_lt.mpr ?_))
    push_cast
    linarith
  · unfold offset_for_pointer_y
    split
    · exact Nat.zero_le _
    · dsimp only
      rw [if_pos (not_lt.mp htravel)]
      exact Nat.zero_le _

theorem offset_mono (drag : TerminalScrollbarDragState) : Monotone drag.offset_for_pointer_y := by
  intro y y' hy
  by_cases htravel : EPSILON < drag.thumb_travel_px
  · have hpos : 0 < drag.thumb_travel_px := lt_trans (by decide +kernel) htravel
    have hrows : (0 : Rat) ≤ drag.max_offset_rows := Nat.cast_nonneg _
    have hway : (y - drag.grab_offset_y_px - drag.track_top_px) / drag.thumb_travel_px *
        drag.max_offset_rows ≤ (y' - drag.grab_offset_y_px - drag.track_top_px) /
          drag.thumb_travel_px * drag.max_offset_rows :=
      mul_le_mul_of_nonneg_right (div_le_div_of_nonneg_right (by linarith) hpos.le) hrows
    rw [offset_eq htravel, offset_eq htravel]
    exact Int.toNat_le_toNat (Int.floor_le_floor (add_le_add_left (clamp_mono hway) _))
  · unfold offset_for_pointer_y
    split
    · exact le_refl _
    · dsimp only
      rw [if_pos (not_lt.mp htravel), if_pos (not_lt.mp htravel)]

end TerminalScrollbarDragState

namespace TerminalScrollbarLayout

variable {layout : TerminalScrollbarLayout} {scrollbar : TerminalScrollbarState}
variable {geometry : TerminalGeometry} {grab : Rat}

/-- What the grab is off the thumb, in rows. -/
def stray_rows (layout : TerminalScrollbarLayout) (grab : Rat) : Rat :=
  (grab - (layout.drag_state grab).grab_offset_y_px) /
    (layout.drag_state grab).thumb_travel_px * layout.max_offset_rows

/-- What there is to a layout. -/
structure Laid (scrollbar : TerminalScrollbarState) (geometry : TerminalGeometry)
    (layout : TerminalScrollbarLayout) : Prop where
  max_offset : layout.max_offset_rows = scrollbar.total_rows - scrollbar.visible_rows
  rows : 0 < layout.max_offset_rows
  thumb : 0 ≤ layout.thumb_height_px
  thumb_top : ∀ grab, layout.thumb_top_px = layout.track_top_px +
    (layout.drag_state grab).thumb_travel_px *
      ((min scrollbar.offset_rows layout.max_offset_rows : Nat) / layout.max_offset_rows)
  /-- With another offset only the thumb is elsewhere. -/
  elsewhere : ∀ offset, ∃ thumb_top_px,
    new { scrollbar with offset_rows := offset } geometry = some { layout with thumb_top_px }

theorem laid_of_new (h : new scrollbar geometry = some layout) :
    Laid scrollbar geometry layout := by
  unfold new at h
  split at h
  · cases h
  · rename_i hrows
    dsimp only at h
    split at h
    · cases h
    · rename_i hgutter
      cases h
      refine ⟨rfl, Nat.sub_pos_of_lt (Nat.not_le.mp hrows), ?_, fun grab => ?_, fun offset => ?_⟩
      · exact le_min (le_max_of_le_right (by decide +kernel)) (le_max_right _ _)
      · have hmax : ¬ scrollbar.total_rows - scrollbar.visible_rows = 0 := by omega
        have hcast : (0 : Rat) < (scrollbar.total_rows - scrollbar.visible_rows : Nat) :=
          Nat.cast_pos.mpr (Nat.pos_of_ne_zero hmax)
        dsimp only
        rw [if_neg hmax, clamp_of_mem (div_nonneg (Nat.cast_nonneg _) hcast.le)
          ((div_le_one hcast).mpr (Nat.cast_le.mpr (Nat.min_le_right _ _)))]
        rfl
      · exact ⟨_, (if_neg hrows).trans (if_neg hgutter)⟩

theorem thumb_top_at (grab : Rat) {offset : Nat} (hoffset : offset ≤ layout.max_offset_rows)
    {thumb_top_px : Rat} (hnew : new { scrollbar with offset_rows := offset } geometry =
      some { layout with thumb_top_px }) :
    thumb_top_px = layout.track_top_px +
      (layout.drag_state grab).thumb_travel_px * (offset / layout.max_offset_rows) := by
  have htop := (laid_of_new hnew).thumb_top grab
  dsimp only at htop
  rw [Nat.min_eq_left hoffset] at htop
  exact htop

/-- The row that a drag is at, where the thumb was grabbed on its row. -/
theorem Laid.dragged (h : Laid scrollbar geometry layout)
    (htravel : EPSILON < (layout.drag_state grab).thumb_travel_px) (offset : Nat) :
    (layout.drag_state grab).offset_for_pointer_y
        (layout.track_top_px + (layout.drag_state grab).thumb_travel_px *
          (offset / layout.max_offset_rows) + grab) =
      (⌊clamp 0 (layout.max_offset_rows : Rat) (offset + layout.stray_rows grab) + 1 / 2⌋).toNat := by
  have hpos : (layout.drag_state grab).thumb_travel_px ≠ 0 :=
    (lt_trans (by decide +kernel) htravel).ne'
  have hrows : (layout.max_offset_rows : Rat) ≠ 0 := Nat.cast_ne_zero.mpr h.rows.ne'
  rw [TerminalScrollbarDragState.offset_eq htravel]
  have hwhere : (layout.track_top_px + (layout.drag_state grab).thumb_travel_px *
      (offset / layout.max_offset_rows) + grab - (layout.drag_state grab).grab_offset_y_px -
        (layout.drag_state grab).track_top_px) / (layout.drag_state grab).thumb_travel_px *
          (layout.drag_state grab).max_offset_rows = offset + layout.stray_rows grab := by
    unfold stray_rows
    change (layout.track_top_px + (layout.drag_state grab).thumb_travel_px *
      (offset / layout.max_offset_rows) + grab - (layout.drag_state grab).grab_offset_y_px -
        layout.track_top_px) / (layout.drag_state grab).thumb_travel_px *
          layout.max_offset_rows = _
    field_simp
    ring
  rw [hwhere]
  rfl

/-- Dragged to where the thumb is for a row, the rows come back exactly if the thumb can go some
way and is grabbed on itself, or less than half a row off it. -/
theorem Laid.round_trip_iff (h : Laid scrollbar geometry layout) (grab : Rat) :
    (∀ offset ≤ layout.max_offset_rows, ∃ at_offset,
      new { scrollbar with offset_rows := offset } geometry = some at_offset ∧
        (layout.drag_state grab).offset_for_pointer_y (at_offset.thumb_top_px + grab) = offset) ↔
      EPSILON < (layout.drag_state grab).thumb_travel_px ∧
        -(1 / 2) ≤ layout.stray_rows grab ∧ layout.stray_rows grab < 1 / 2 := by
  have hwhere : (∀ offset ≤ layout.max_offset_rows, ∃ at_offset,
      new { scrollbar with offset_rows := offset } geometry = some at_offset ∧
        (layout.drag_state grab).offset_for_pointer_y (at_offset.thumb_top_px + grab) = offset) ↔
      ∀ offset ≤ layout.max_offset_rows, (layout.drag_state grab).offset_for_pointer_y
        (layout.track_top_px + (layout.drag_state grab).thumb_travel_px *
          (offset / layout.max_offset_rows) + grab) = offset := by
    refine forall₂_congr fun offset hoffset => ?_
    obtain ⟨thumb_top_px, hnew⟩ := h.elsewhere offset
    rw [hnew, ← thumb_top_at grab hoffset hnew]
    constructor
    · rintro ⟨at_offset, hsome, hrow⟩
      cases hsome
      exact hrow
    · exact fun hrow => ⟨_, rfl, hrow⟩
  rw [hwhere]
  by_cases htravel : EPSILON < (layout.drag_state grab).thumb_travel_px
  · rw [and_iff_right htravel, ← rounds_back_iff h.rows]
    exact forall₂_congr fun offset _ => by rw [h.dragged htravel]
  · refine ⟨fun hall => ?_, fun hcond => absurd hcond.1 htravel⟩
    have hstuck : ∀ y, (layout.drag_state grab).offset_for_pointer_y y = 0 := by
      intro y
      unfold TerminalScrollbarDragState.offset_for_pointer_y
      dsimp only
      rw [if_pos (not_lt.mp htravel), ite_self]
    have hone := hall 1 h.rows
    rw [hstuck] at hone
    cases hone

end TerminalScrollbarLayout

/-- What is grabbed with the mouse is on the thumb. -/
theorem grabbed_on_thumb {scrollbar : TerminalScrollbarState} {geometry : TerminalGeometry}
    {layout : TerminalScrollbarLayout}
    (h : TerminalScrollbarLayout.new scrollbar geometry = some layout) {x y : Rat}
    {outcome : TerminalScrollbarMouseDownOutcome}
    (houtcome : terminal_scrollbar_mouse_down_outcome layout x y = some outcome) :
    ∃ grab, outcome.drag_state = layout.drag_state grab ∧ layout.stray_rows grab = 0 := by
  have hthumb := (TerminalScrollbarLayout.laid_of_new h).thumb
  have hon : ∀ grab, 0 ≤ grab → grab ≤ layout.thumb_height_px → layout.stray_rows grab = 0 := by
    intro grab hlow hhigh
    unfold TerminalScrollbarLayout.stray_rows TerminalScrollbarLayout.drag_state
    dsimp only
    rw [clamp_of_mem hlow hhigh, sub_self, zero_div, zero_mul]
  obtain ⟨hit, hhit, rfl⟩ := Option.map_eq_some_iff.mp houtcome
  cases hit with
  | thumb =>
    refine ⟨_, rfl, ?_⟩
    unfold TerminalScrollbarLayout.hit_test TerminalScrollbarLayout.within at hhit
    split at hhit
    · rename_i hwithin
      simp only [Bool.and_eq_true, decide_eq_true_eq] at hwithin
      exact hon _ (by linarith [hwithin.1.2]) (by linarith [hwithin.2])
    · split at hhit
      · cases hhit
      · cases hhit
  | track =>
    refine ⟨_, rfl, hon _ ?_ ?_⟩
    · unfold TerminalScrollbarLayout.center_grab_offset_y_px
      linarith
    · unfold TerminalScrollbarLayout.center_grab_offset_y_px
      linarith

/-- Dragged to where the thumb is for an offset, the scrollbar of a buffer gives the offset back,
for each of its offsets, exactly if the thumb can go more than `EPSILON` and is grabbed on itself
or so little off it that it is less than half a row; the offset goes with the pointer, and is
always one of the buffer. -/
theorem drag_round_trip {scrollbar : TerminalScrollbarState} {geometry : TerminalGeometry}
    {layout : TerminalScrollbarLayout}
    (h : TerminalScrollbarLayout.new scrollbar geometry = some layout) (grab : Rat) :
    ((∀ offset ≤ scrollbar.total_rows - scrollbar.visible_rows, ∃ at_offset,
      TerminalScrollbarLayout.new { scrollbar with offset_rows := offset } geometry =
        some at_offset ∧
      (layout.drag_state grab).offset_for_pointer_y (at_offset.thumb_top_px + grab) = offset) ↔
      EPSILON < (layout.drag_state grab).thumb_travel_px ∧
        -(1 / 2) ≤ layout.stray_rows grab ∧ layout.stray_rows grab < 1 / 2) ∧
    Monotone (layout.drag_state grab).offset_for_pointer_y ∧
    ∀ y, (layout.drag_state grab).offset_for_pointer_y y ≤
      scrollbar.total_rows - scrollbar.visible_rows := by
  have hlaid := TerminalScrollbarLayout.laid_of_new h
  rw [← hlaid.max_offset]
  exact ⟨hlaid.round_trip_iff grab, TerminalScrollbarDragState.offset_mono _,
    TerminalScrollbarDragState.offset_le _⟩

theorem drag_round_trip_center : ∃ layout,
    TerminalScrollbarLayout.new ⟨200, 88, 24⟩ ⟨⟨80, 24⟩, ⟨640, 456⟩, 8, 19⟩ = some layout ∧
      ∀ offset ≤ 176, ∃ at_offset,
        TerminalScrollbarLayout.new ⟨200, offset, 24⟩ ⟨⟨80, 24⟩, ⟨640, 456⟩, 8, 19⟩ =
          some at_offset ∧
        (layout.drag_state layout.center_grab_offset_y_px).offset_for_pointer_y
          (at_offset.thumb_top_px + layout.center_grab_offset_y_px) = offset := by
  have hlayout : TerminalScrollbarLayout.new ⟨200, 88, 24⟩ ⟨⟨80, 24⟩, ⟨640, 456⟩, 8, 19⟩ =
      some ((TerminalScrollbarLayout.new ⟨200, 88, 24⟩ ⟨⟨80, 24⟩, ⟨640, 456⟩, 8, 19⟩).get
        (by decide +kernel)) := (Option.some_get _).symm
  exact ⟨_, hlayout, (drag_round_trip hlayout _).1.mpr (by decide +kernel)⟩

/-- In a window of two rows the thumb fills the track, and every drag leads to the first row. -/
theorem drag_stuck : ¬ ∀ (scrollbar : TerminalScrollbarState) (geometry : TerminalGeometry)
    (layout : TerminalScrollbarLayout) (grab : Rat),
    TerminalScrollbarLayout.new scrollbar geometry = some layout →
    ∀ offset ≤ scrollbar.total_rows - scrollbar.visible_rows, ∃ at_offset,
      TerminalScrollbarLayout.new { scrollbar with offset_rows := offset } geometry =
        some at_offset ∧
      (layout.drag_state grab).offset_for_pointer_y (at_offset.thumb_top_px + grab) = offset := by
  intro h
  have hlayout : TerminalScrollbarLayout.new ⟨100, 1, 2⟩ ⟨⟨80, 2⟩, ⟨640, 38⟩, 8, 19⟩ =
      some ((TerminalScrollbarLayout.new ⟨100, 1, 2⟩ ⟨⟨80, 2⟩, ⟨640, 38⟩, 8, 19⟩).get
        (by decide +kernel)) := (Option.some_get _).symm
  obtain ⟨at_offset, hnew, hback⟩ := h _ _ _ 13 hlayout 1 (by decide)
  cases hlayout.symm.trans hnew
  exact absurd hback (by decide +kernel)

end Seance.Ui.Scrolling
