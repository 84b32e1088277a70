import Seance.Config.Format

namespace Seance.Config
open Lib Vault

section Normalized

theorem trim_optional_trim_optional (value : Option String) :
    trim_optional (trim_optional value) = trim_optional value :=
  trim_optional_of_settled fun text htext => by
    obtain ⟨⟨raw, _, rfl⟩, hne⟩ := trim_optional_eq_some.mp htext
    exact ⟨trim_trim raw, hne⟩

theorem KeybindingsConfig.normalized_normalized (keybindings : KeybindingsConfig) :
    keybindings.normalized.normalized = keybindings.normalized := by
  have hoverrides : ∀ binding : KeybindingOverride,
      ({ id := trim (trim binding.id), chord := trim_optional (trim_optional binding.chord),
         disabled := binding.disabled } : KeybindingOverride) =
        { binding with id := trim binding.id, chord := trim_optional binding.chord } := fun binding => by
    rw [trim_trim, trim_optional_trim_optional]
  have hcustom : ∀ binding : CustomKeybinding,
      ({ chord := trim (trim binding.chord), command := trim (trim binding.command),
         context := binding.context } : CustomKeybinding) =
        { binding with chord := trim binding.chord, command := trim binding.command } :=
    fun binding => by rw [trim_trim, trim_trim]
  unfold normalized
  rw [List.map_map, List.map_map]
  exact congrArg₂ KeybindingsConfig.mk (List.map_congr_left fun binding _ => hoverrides binding)
    (List.map_congr_left fun binding _ => hcustom binding)

/-- Normalizing a configuration again changes nothing. -/
theorem AppConfig.normalized_normalized (config : AppConfig) :
    config.normalized.normalized = config.normalized := by
  unfold normalized
  dsimp only
  rw [trim_trim, trim_trim, trim_optional_trim_optional,
    config.keybindings.normalized_normalized,
    config.vaults.settled_normalized.normalized_eq]

end Normalized

/-- What the `toml` crate makes of the data model. -/
structure Document where
  parse : String → Except String (Value F32)
  print : Value F32 → Except String String

namespace Document

/-- The configuration's own instances between the text and the configuration. -/
def toml (doc : Document) : Toml where
  from_str text := do
    let v ← doc.parse text
    wire_app_config.decode v
  to_string_pretty wire := doc.print (wire_app_config.encode wire)

/-- The text of a configuration is parsed as the data it was written from. -/
def Faithful (doc : Document) : Prop :=
  ∀ wire text, doc.print (wire_app_config.encode wire) = .ok text →
    doc.parse text = .ok (wire_app_config.encode wire)

variable {doc : Document}

theorem Faithful.from_str (h : doc.Faithful) {config : AppConfig} {text : String}
    (htext : doc.toml.to_string_pretty config.wire = .ok text) :
    Config.from_str doc.toml text = .ok config := by
  have hwire : doc.toml.from_str text = .ok config.wire := by
    change (doc.parse text >>= fun v => wire_app_config.decode v) = _
    rw [h _ _ htext, except_ok_bind, wire_app_config.decode_encode]
  unfold Config.from_str
  rw [hwire]
  dsimp only
  rw [config.deserialize_wire]

end Document

section Reloading

variable {platform : Platform} {doc : Document} {io io' : FileSystem}
variable {config : AppConfig} {store after : ConfigStore} {file : ByteArray}

/-- A file that was written of a valid configuration is read as that configuration. -/
theorem load_written (h : doc.Faithful)
    (hvalid : config.normalized.validate platform = .ok ())
    (hfile : persist_config doc.toml io config.normalized = .ok file) (hread : io'.read = none) :
    ConfigStore.load platform doc.toml io' file = .ok config.normalized := by
  obtain ⟨text, htext, rfl⟩ := persist_config_ok hfile
  have hcontents : read_to_string io' text.toUTF8 = .ok text := by
    unfold read_to_string
    rw [hread, fromUTF8_toUTF8]
    rfl
  unfold ConfigStore.load
  rw [hcontents, except_ok_bind, h.from_str htext, except_ok_bind]
  dsimp only
  rw [config.normalized_normalized, hvalid]
  rfl

theorem reload_replaced (h : doc.Faithful)
    (hafter : store.replace platform doc.toml io config = .ok after) (hread : io'.read = none) :
    after.config = config.normalized ∧
      ConfigStore.load_or_default platform doc.toml io' after.path after.file = .ok after := by
  obtain ⟨hvalid, file, hfile, rfl⟩ := replace_ok hafter
  refine ⟨rfl, ?_⟩
  unfold ConfigStore.load_or_default
  dsimp only
  rw [load_written h hvalid hfile hread]
  rfl

end Reloading

/-- What a store accepts is read back from its file as it is stored, and normalizing it again
neither changes it nor makes it unacceptable. -/
theorem config_persists (platform : Platform) (doc : Document) (h : doc.Faithful) :
    (∀ config : AppConfig, config.normalized.normalized = config.normalized) ∧
    (∀ config : AppConfig, config.normalized.validate platform = .ok () →
      config.normalized.normalized.validate platform = .ok ()) ∧
    (∀ io config (store after : ConfigStore),
      store.replace platform doc.toml io config = .ok after →
        after.config = config.normalized ∧ ∀ io' : FileSystem, io'.read = none →
          ConfigStore.load_or_default platform doc.toml io' after.path after.file = .ok after) ∧
    ∀ io f (store after : ConfigStore), store.update platform doc.toml io f = .ok after →
      after.config = (f store.config).normalized ∧ ∀ io' : FileSystem, io'.read = none →
        ConfigStore.load_or_default platform doc.toml io' after.path after.file = .ok after := by
  refine ⟨AppConfig.normalized_normalized, ?_, ?_, ?_⟩
  · intro config hvalid
    rw [config.normalized_normalized]
    exact hvalid
  · intro io config store after hafter
    obtain ⟨_, _, _, rfl⟩ := replace_ok hafter
    exact ⟨rfl, fun io' hread => (reload_replaced h hafter hread).2⟩
  · intro io f store after hafter
    obtain ⟨_, _, _, rfl⟩ := replace_ok hafter
    exact ⟨rfl, fun io' hread => (reload_replaced h hafter hread).2⟩

section Example

def bone : AppConfig := { AppConfig.default with
  appearance := ⟨"bone"⟩
  keybindings := ⟨[⟨"app.quit", none, true⟩], []⟩ }

def bone_text : String :=
  "[appearance]\ntheme = \"bone\"\n\n[vaults]\nentries = []\nopen_vault_ids = []\n\n" ++
    "[window]\nkeep_running_without_windows = true\nhide_on_last_window_close = true\n" ++
    "keep_sessions_alive_without_windows = true\n\n" ++
    "[terminal]\nfont_family = \"Menlo\"\nfont_size_px = 13.0\nline_height_px = 19.0\n\n" ++
    "[terminal.interaction]\nmouse_tracking_scroll = \"hybrid-shift-wheel-local\"\n" ++
    "mouse_tracking_selection = \"shift-drag-local\"\nright_click = \"copy-selection-or-paste\"\n\n" ++
    "[logging]\nsession_transcript_enabled = false\nsession_transcript_retention_days = 7\n" ++
    "session_transcript_max_bytes_per_session = 67108864\n\n" ++
    "[updates]\nauto_check = true\ninstall_mode = \"prompted\"\nchannel = \"stable\"\n\n" ++
    "[debug]\nperf_hud_default = \"off\"\n\n" ++
    "[[keybindings.overrides]]\nid = \"app.quit\"\ndisabled = true\n"

/-- A document that knows one configuration. -/
def bone_document : Document where
  parse text :=
    if text = bone_text then .ok (wire_app_config.encode bone.wire) else .error "unexpected text"
  print v :=
    match wire_app_config.decode v with
    | .ok wire => if wire = bone.wire then .ok bone_text else .error "unexpected value"
    | .error source => .error source

theorem bone_document_faithful : bone_document.Faithful := by
  intro wire text hprint
  unfold bone_document at hprint ⊢
  dsimp only at hprint ⊢
  rw [wire_app_config.decode_encode] at hprint
  dsimp only at hprint
  split at hprint
  · rename_i hwire
    cases hprint
    rw [if_pos rfl, hwire]
  · cases hprint

def unbound : Platform := ⟨false, id⟩

def choose_bone (config : AppConfig) : AppConfig := { config with
  appearance := ⟨" bone "⟩
  keybindings := ⟨[⟨"app.quit", some " ", true⟩], []⟩ }

theorem config_persists_bone :
    ConfigStore.load_or_default unbound bone_document.toml {} "seance.toml"
      (some bone_text.toUTF8) = .ok ⟨"seance.toml", bone, some bone_text.toUTF8⟩ := by
  have hsame : (choose_bone AppConfig.default).normalized = bone := by decide +kernel
  have hvalid : (choose_bone AppConfig.default).normalized.validate unbound = .ok () := by
    decide +kernel
  have hprint : bone_document.toml.to_string_pretty bone.wire = .ok bone_text := by
    change bone_document.print (wire_app_config.encode bone.wire) = _
    unfold bone_document
    dsimp only
    rw [wire_app_config.decode_encode]
    exact if_pos rfl
  have hpersist : persist_config bone_document.toml {} (choose_bone AppConfig.default).normalized =
      .ok bone_text.toUTF8 := by
    simp only [persist_config, serialized, hsame, hprint]
    rfl
  have hupdate : (ConfigStore.with_defaults "seance.toml" none).update unbound bone_document.toml
      {} choose_bone = .ok ⟨"seance.toml", bone, some bone_text.toUTF8⟩ := by
    rw [← hsame]
    exact replace_of_ok _ hvalid hpersist
  exact ((config_persists unbound bone_document bone_document_faithful).2.2.2 {} choose_bone _ _
    hupdate).2 {} rfl

end Example

end Seance.Config
