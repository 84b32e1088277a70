import Mathlib.Data.List.Induction
import Seance.Config.Keybindings
import Seance.Config.Validation
import Seance.Ui.Keymap

namespace Seance.Ui
open Lib Config

/-- A chord that runs a command in a context. -/
structure Bound where
  chord : String
  command : String
  context : KeybindingContext
  deriving DecidableEq, Repr

/-- The keystrokes that gpui makes of a chord. -/
def denotes {K : Type} (platform : Config.Platform) (gpui : Gpui K) (chord : String) : List K :=
  (spelled platform chord).map (parse_keystroke platform gpui)

/-- The chord of a default: that of its override, or its own unless it is disabled. -/
def default_in_force (overrides : List KeybindingOverride) (builtin : BuiltinKeybinding) :
    Option Bound :=
  let bound chord : Bound := ⟨chord, builtin.command, builtin.context⟩
  match overrides.reverse.find? fun binding => binding.id = builtin.id with
  | none => some (bound builtin.default_chord)
  | some binding =>
    match binding.chord with
    | some chord => some (bound chord)
    | none => if binding.disabled then none else some (bound builtin.default_chord)

def custom_in_force (custom : CustomKeybinding) : Bound :=
  ⟨custom.chord, custom.command, custom.context⟩

/-- A command that nothing runs is bound to no keys. -/
def Bound.runs (bound : Bound) : Bool := (action_for_command bound.command).isSome

/-- The bindings of a configuration that are in force. -/
def effective_bindings (platform : Config.Platform) (config : AppConfig) : List Bound :=
  let defaults := (BUILTIN_KEYBINDINGS platform).filterMap
    (default_in_force config.keybindings.overrides)
  let customs := config.keybindings.custom.map custom_in_force
  (defaults ++ customs).filter Bound.runs

def EffectiveKeybindingEntry.bound (entry : EffectiveKeybindingEntry) : Option Bound :=
  entry.effective_chord.map fun chord => ⟨chord, entry.command, entry.context⟩

/-- The bindings that a keymap has in force. -/
def EffectiveKeymap.enabled {K : Type} (keymap : EffectiveKeymap K) : List Bound :=
  (keymap.entries.filterMap EffectiveKeybindingEntry.bound).filter Bound.runs

/-- A conflict lists two bindings, the one before the other. -/
def KeybindingConflict.Lists (platform : Config.Platform) (conflict : KeybindingConflict)
    (a b : Bound) : Prop :=
  (∀ bound ∈ [a, b], bound.context = conflict.context ∧
    normalize_chord_for_platform platform bound.chord = conflict.chord) ∧
  [a.command, b.command].Sublist conflict.commands

section Conflicts

variable {K : Type} (platform : Config.Platform) (gpui : Gpui K)

/-- Every two bindings of one context with the same keystrokes are reported. -/
def CompleteConflicts (keymap : EffectiveKeymap K) : Prop :=
  keymap.enabled.Pairwise fun a b => a.context = b.context →
    denotes platform gpui a.chord = denotes platform gpui b.chord →
    ∃ conflict ∈ keymap.conflicts, conflict.Lists platform a b

/-- What is reported are two or more bindings of one context with the same keystrokes. -/
def SoundConflicts (keymap : EffectiveKeymap K) : Prop :=
  ∀ conflict ∈ keymap.conflicts, ∃ bindings : List Bound, bindings.Sublist keymap.enabled ∧
    bindings.map Bound.command = conflict.commands ∧ 2 ≤ bindings.length ∧
    ∃ keystrokes, ∀ bound ∈ bindings, bound.context = conflict.context ∧
      denotes platform gpui bound.chord = keystrokes

/-- No keystrokes are spelled in two ways in one context: with their modifiers in another order,
another case or under another name, say. -/
def SpelledOneWay (bindings : List Bound) : Prop :=
  bindings.Pairwise fun a b => a.context = b.context →
    denotes platform gpui a.chord = denotes platform gpui b.chord →
    spelled platform a.chord = spelled platform b.chord

/-- What a collision is found under. -/
def collision_key (bound : Bound) : String × KeybindingContext :=
  (normalize_chord_for_platform platform bound.chord, bound.context)

/-- The collisions are those of the bindings that are in force. -/
structure Registered (s : Resolving K) (bindings : List Bound) : Prop where
  entries : (s.entries.filterMap EffectiveKeybindingEntry.bound).filter Bound.runs = bindings
  collisions : s.collisions =
    bindings.foldl (fun m bound => Map.push m (collision_key platform bound) bound.command)
      Table.empty
  keystrokes : s.bindings.map KeyBinding.keystrokes =
    bindings.map fun bound => denotes platform gpui bound.chord

end Conflicts

section Resolved

variable {K : Type} {platform : Config.Platform} {gpui : Gpui K} {s : Resolving K}
  {bindings : List Bound} {bound : Bound} {entry : EffectiveKeybindingEntry}
  {config : AppConfig}

theorem build_binding_of_runs (platform : Config.Platform) (gpui : Gpui K)
    (h : bound.runs = true) :
    ∃ binding, build_binding_for_command platform gpui bound.chord bound.command bound.context =
      some binding ∧ binding.keystrokes = denotes platform gpui bound.chord := by
  obtain ⟨action, haction⟩ := Option.isSome_iff_exists.mp h
  refine ⟨_, by rw [build_binding_for_command, haction, Option.map_some], ?_⟩
  unfold KeyBinding.new denotes
  rw [← split_normalized, List.map_map]
  rfl

theorem build_binding_of_not_runs (h : bound.runs = false) :
    build_binding_for_command platform gpui bound.chord bound.command bound.context = none := by
  unfold build_binding_for_command
  rw [Option.map_eq_none_iff]
  exact Option.isNone_iff_eq_none.mp (by simpa [Bound.runs] using h)

/-- A binding is registered as its entry is listed. -/
theorem Registered.bind (h : Registered platform gpui s bindings) (bound : Bound)
    (hentry : entry.bound = some bound) :
    Registered platform gpui
      (let s := s.bind platform gpui bound.chord bound.command bound.context
      { s with entries := s.entries ++ [entry] })
      (bindings ++ [bound].filter Bound.runs) := by
  have hentries : ((s.entries ++ [entry]).filterMap EffectiveKeybindingEntry.bound).filter
      Bound.runs = bindings ++ [bound].filter Bound.runs := by
    rw [List.filterMap_append, List.filter_append, h.entries]
    simp [hentry]
  unfold Resolving.bind
  cases hruns : bound.runs with
  | true =>
    obtain ⟨binding, hbinding, hkeystrokes⟩ := build_binding_of_runs platform gpui hruns
    rw [hbinding]
    rw [List.filter_cons_of_pos hruns, List.filter_nil] at hentries ⊢
    refine ⟨hentries, ?_, ?_⟩
    · rw [List.foldl_append, ← h.collisions]
      rfl
    · rw [List.map_append, h.keystrokes, List.map_append, List.map_singleton, hkeystrokes]
      rfl
  | false =>
    rw [build_binding_of_not_runs hruns]
    have hnone : [bound].filter Bound.runs = [] :=
      List.filter_cons_of_neg (Bool.eq_false_iff.mp hruns)
    rw [hnone, List.append_nil] at hentries ⊢
    exact ⟨hentries, h.collisions, h.keystrokes⟩

/-- An entry without a chord registers nothing. -/
theorem Registered.skip (h : Registered platform gpui s bindings) (hentry : entry.bound = none) :
    Registered platform gpui { s with entries := s.entries ++ [entry] } bindings := by
  refine { h with entries := ?_ }
  rw [List.filterMap_append, List.filter_append, h.entries]
  simp [hentry]

theorem default_in_force_eq (overrides : List KeybindingOverride) (builtin : BuiltinKeybinding) :
    default_in_force overrides builtin =
      let binding_override := overrides.reverse.find? fun binding => binding.id = builtin.id
      ((binding_override.bind KeybindingOverride.chord).or
        (if binding_override.any KeybindingOverride.disabled then none
        else some builtin.default_chord)).map fun chord =>
          ⟨chord, builtin.command, builtin.context⟩ := by
  unfold default_in_force
  cases overrides.reverse.find? fun binding => binding.id = builtin.id with
  | none => rfl
  | some binding =>
    obtain ⟨id, chord, disabled⟩ := binding
    cases chord <;> cases disabled <;> rfl

theorem Registered.add_builtin (h : Registered platform gpui s bindings)
    (overrides : List KeybindingOverride) (builtin : BuiltinKeybinding) :
    Registered platform gpui (Ui.add_builtin platform gpui overrides s builtin)
      (bindings ++ (default_in_force overrides builtin).toList.filter Bound.runs) := by
  unfold Ui.add_builtin
  rw [default_in_force_eq]
  dsimp only
  generalize (overrides.reverse.find? fun binding => binding.id = builtin.id) = binding_override
  cases ((binding_override.bind KeybindingOverride.chord).or
      (if binding_override.any KeybindingOverride.disabled = true then none
      else some builtin.default_chord)) with
  | none =>
    rw [Option.map_none, Option.toList_none, List.filter_nil, List.append_nil]
    exact h.skip rfl
  | some chord =>
    exact h.bind ⟨chord, builtin.command, builtin.context⟩ rfl

theorem Registered.add_custom (h : Registered platform gpui s bindings)
    (custom : CustomKeybinding) :
    Registered platform gpui (Ui.add_custom platform gpui s custom)
      (bindings ++ [custom_in_force custom].filter Bound.runs) :=
  h.bind (custom_in_force custom) rfl

theorem registered_builtins (overrides : List KeybindingOverride)
    (builtins : List BuiltinKeybinding) (h : Registered platform gpui s bindings) :
    Registered platform gpui (builtins.foldl (add_builtin platform gpui overrides) s)
      (bindings ++ (builtins.filterMap (default_in_force overrides)).filter Bound.runs) := by
  induction builtins generalizing s bindings with
  | nil =>
    rw [List.filterMap_nil, List.filter_nil, List.append_nil]
    exact h
  | cons builtin builtins ih =>
    have hrest := ih (h.add_builtin overrides builtin)
    rw [List.append_assoc, ← List.filter_append] at hrest
    rw [List.foldl_cons, List.filterMap_cons]
    cases hforce : default_in_force overrides builtin with
    | none => simpa [hforce] using hrest
    | some bound => simpa [hforce] using hrest

theorem registered_customs (customs : List CustomKeybinding)
    (h : Registered platform gpui s bindings) :
    Registered platform gpui (customs.foldl (add_custom platform gpui) s)
      (bindings ++ (customs.map custom_in_force).filter Bound.runs) := by
  induction customs generalizing s bindings with
  | nil =>
    rw [List.map_nil, List.filter_nil, List.append_nil]
    exact h
  | cons custom customs ih =>
    have hrest := ih (h.add_custom custom)
    rw [List.append_assoc, ← List.filter_append] at hrest
    exact hrest

/-- What a keymap has in force is what its configuration puts in force. -/
theorem registered_resolved (platform : Config.Platform) (gpui : Gpui K) (config : AppConfig) :
    ∃ s, Registered platform gpui s (effective_bindings platform config) ∧
      resolve_effective_keymap platform gpui config =
        { bindings := s.bindings
          entries := s.entries
          conflicts := s.collisions.rows.filterMap fun ((chord, context), commands) =>
            if commands.length > 1 then some ⟨chord, context, commands⟩ else none } := by
  have hstart : Registered platform gpui ({} : Resolving K) [] := ⟨rfl, rfl, rfl⟩
  have hrun := registered_customs config.keybindings.custom
    (registered_builtins config.keybindings.overrides (BUILTIN_KEYBINDINGS platform) hstart)
  rw [List.nil_append, ← List.filter_append] at hrun
  exact ⟨_, hrun, rfl⟩

theorem enabled_resolved : (resolve_effective_keymap platform gpui config).enabled =
    effective_bindings platform config := by
  obtain ⟨s, hs, hkeymap⟩ := registered_resolved platform gpui config
  rw [hkeymap]
  exact hs.entries

/-- What gpui is given to match are the keystrokes of the bindings in force. -/
theorem keystrokes_resolved :
    (resolve_effective_keymap platform gpui config).bindings.map KeyBinding.keystrokes =
      (effective_bindings platform config).map fun bound => denotes platform gpui bound.chord := by
  obtain ⟨s, hs, hkeymap⟩ := registered_resolved platform gpui config
  rw [hkeymap]
  exact hs.keystrokes

/-- A conflict is of the bindings in force that have its chord and its context. -/
theorem mem_conflicts {conflict : KeybindingConflict} :
    conflict ∈ (resolve_effective_keymap platform gpui config).conflicts ↔
      conflict.commands = Map.valuesOf (collision_key platform) Bound.command
        (effective_bindings platform config) (conflict.chord, conflict.context) ∧
      2 ≤ conflict.commands.length := by
  obtain ⟨s, hs, hkeymap⟩ := registered_resolved platform gpui config
  rw [hkeymap]
  have hget := Map.get_push_all (collision_key platform) Bound.command
    (effective_bindings platform config) (conflict.chord, conflict.context)
  rw [← hs.collisions] at hget
  constructor
  · intro h
    obtain ⟨⟨⟨chord, context⟩, commands⟩, hrow, hconflict⟩ := List.mem_filterMap.mp h
    rw [Option.ite_none_right_eq_some] at hconflict
    obtain ⟨hmany, hconflict⟩ := hconflict
    obtain rfl := Option.some.inj hconflict
    rw [Map.mem_rows.mp hrow] at hget
    split at hget
    · exact absurd hget (Option.some_ne_none _)
    · exact ⟨Option.some.inj hget, hmany⟩
  · rintro ⟨hcommands, hmany⟩
    refine List.mem_filterMap.mpr
      ⟨((conflict.chord, conflict.context), conflict.commands), Map.mem_rows.mpr ?_, if_pos hmany⟩
    rw [hget, if_neg, hcommands]
    intro hnil
    rw [hcommands, hnil] at hmany
    exact absurd hmany (by decide)

/-- What is reported as conflicting has the same keystrokes. -/
theorem conflicts_sound :
    SoundConflicts platform gpui (resolve_effective_keymap platform gpui config) := by
  intro conflict hconflict
  obtain ⟨hcommands, hmany⟩ := mem_conflicts.mp hconflict
  rw [enabled_resolved]
  refine ⟨_, List.filter_sublist, hcommands.symm, ?_, ?_⟩
  · rw [hcommands, Map.valuesOf, List.length_map] at hmany
    exact hmany
  · refine ⟨((split_whitespace conflict.chord).map split_dash).map
      (parse_keystroke platform gpui), fun bound hbound => ?_⟩
    have hkey := of_decide_eq_true (List.mem_filter.mp hbound).2
    obtain ⟨hchord, hcontext⟩ := Prod.mk.inj hkey
    refine ⟨hcontext, ?_⟩
    rw [← hchord, split_normalized]
    rfl

/-- Two bindings are reported when they are spelled the same. -/
theorem listed_iff {a b : Bound}
    (hpair : [a, b].Sublist (effective_bindings platform config)) (hcontext : a.context = b.context) :
    (∃ conflict ∈ (resolve_effective_keymap platform gpui config).conflicts,
      conflict.Lists platform a b) ↔ spelled platform a.chord = spelled platform b.chord := by
  constructor
  · rintro ⟨conflict, _, hlists, _⟩
    have ha := (hlists a (by simp)).2
    have hb := (hlists b (by simp)).2
    exact normalized_eq_iff.mp (ha.trans hb.symm)
  · intro hspelled
    have hchord := normalized_eq_iff.mpr hspelled
    have hcommands : [a.command, b.command].Sublist (Map.valuesOf (collision_key platform)
        Bound.command (effective_bindings platform config) (collision_key platform a)) := by
      have hfilter := (hpair.filter fun bound =>
        collision_key platform bound = collision_key platform a).map Bound.command
      have hkeys : ∀ bound ∈ [a, b],
          decide (collision_key platform bound = collision_key platform a) = true := by
        intro bound hbound
        rcases List.mem_pair.mp hbound with rfl | rfl
        · exact decide_eq_true rfl
        · exact decide_eq_true (Prod.ext hchord.symm hcontext.symm)
      rw [List.filter_eq_self.mpr hkeys] at hfilter
      exact hfilter
    refine ⟨⟨(collision_key platform a).1, (collision_key platform a).2, _⟩,
      mem_conflicts.mpr ⟨rfl, hcommands.length_le⟩, ?_, hcommands⟩
    intro bound hbound
    rcases List.mem_pair.mp hbound with rfl | rfl
    · exact ⟨rfl, rfl⟩
    · exact ⟨hcontext.symm, hchord.symm⟩

/-- The conflicts are complete when no keystrokes are spelled in two ways. -/
theorem conflicts_complete_iff :
    CompleteConflicts platform gpui (resolve_effective_keymap platform gpui config) ↔
      SpelledOneWay platform gpui (effective_bindings platform config) := by
  unfold CompleteConflicts SpelledOneWay
  rw [enabled_resolved, List.pairwise_iff_forall_sublist, List.pairwise_iff_forall_sublist]
  refine forall_congr' fun a => forall_congr' fun b => forall_congr' fun hpair =>
    forall_congr' fun hcontext => forall_congr' fun _ => ?_
  exact listed_iff hpair hcontext

end Resolved

theorem keybinding_conflicts_iff {K : Type} (platform : Config.Platform) (gpui : Gpui K)
    (config : AppConfig) :
    (CompleteConflicts platform gpui (resolve_effective_keymap platform gpui config) ∧
      SoundConflicts platform gpui (resolve_effective_keymap platform gpui config)) ↔
    SpelledOneWay platform gpui (effective_bindings platform config) := by
  rw [and_iff_left conflicts_sound]
  exact conflicts_complete_iff

section Example

/-- Keystrokes as their modifiers and their key. -/
def plain_gpui : Gpui (Finset Modifier × String) where
  keystroke := Prod.mk
  display := Prod.snd

/-- One chord twice, its modifiers in another order. -/
def swapped_modifiers : AppConfig := { AppConfig.default with
  keybindings := ⟨[], [⟨"ctrl-shift-a", COMMAND_APP_QUIT, .appGlobal⟩,
    ⟨"shift-ctrl-a", COMMAND_APP_HIDE, .appGlobal⟩]⟩ }

/-- Both run, and neither is reported. -/
theorem swapped_modifiers_unreported :
    swapped_modifiers.validate ⟨false, id⟩ = .ok () ∧
      ¬ (CompleteConflicts ⟨false, id⟩ plain_gpui
          (resolve_effective_keymap ⟨false, id⟩ plain_gpui swapped_modifiers) ∧
        SoundConflicts ⟨false, id⟩ plain_gpui
          (resolve_effective_keymap ⟨false, id⟩ plain_gpui swapped_modifiers)) := by
  refine ⟨by decide +kernel, fun h => ?_⟩
  have hone := conflicts_complete_iff.mp h.1
  let quit : Bound := ⟨"ctrl-shift-a", COMMAND_APP_QUIT, .appGlobal⟩
  let hide : Bound := ⟨"shift-ctrl-a", COMMAND_APP_HIDE, .appGlobal⟩
  have hboth : [quit, hide].Sublist (effective_bindings ⟨false, id⟩ swapped_modifiers) := by
    have hruns : [quit, hide].filter Bound.runs = [quit, hide] := by decide +kernel
    rw [← hruns]
    exact (List.sublist_append_right _ _).filter _
  have hsame : denotes ⟨false, id⟩ plain_gpui quit.chord =
      denotes ⟨false, id⟩ plain_gpui hide.chord := by decide +kernel
  have hspelled := List.pairwise_iff_forall_sublist.mp hone hboth rfl hsame
  exact absurd hspelled (by decide +kernel)

end Example

end Seance.Ui
