import Seance.Lib.Runs
import Seance.Ui.Sftp

namespace Seance.Ui
open Lib
open Terminal (utf8)
open Vault (trim)

/-- An entry as a prompt was opened for it. -/
structure Target where
  path : String
  is_dir : Bool
  directory : String
  deriving DecidableEq

def SftpBrowserState.target (browser : SftpBrowserState) (idx : Nat) : Option Target :=
  (browser.entries[idx]?).map fun entry => ⟨entry.path, entry.is_dir, browser.current_path⟩

/-- The command that an event runs. -/
def SftpEvent.command (browser : SftpBrowserState) : SftpEvent → Option SftpCommand
  | .key event =>
    match browser.mkdir_input, browser.rename_target, browser.confirm_delete with
    | none, none, none => event.command
    | _, _, _ => none
  | .toolbar command => some command
  | _ => none

/-- The browser with the entries that were selected when its prompts were opened last. -/
structure Prompted where
  browser : Option SftpBrowserState
  delete_target : Option Target
  rename_target : Option Target
  deriving DecidableEq

/-- An event with what the server answers to its calls. -/
structure SftpTurn where
  event : SftpEvent
  answers : SftpAnswers

namespace Prompted

/-- The selected entry, where the event runs this command on it. -/
def chosen (s : Prompted) (command : SftpCommand) (event : SftpEvent) : Option Target :=
  s.browser.bind fun browser =>
    if event.command browser = some command then browser.target browser.selected_index else none

section Step

variable (platform : SftpPlatform) (s : Prompted) (turn : SftpTurn)

def calls : List SftpCall := (sftp_event platform turn.answers s.browser turn.event).2

def step : Prompted :=
  { browser := (sftp_event platform turn.answers s.browser turn.event).1
    delete_target := (s.chosen .delete turn.event).or s.delete_target
    rename_target := (s.chosen .rename turn.event).or s.rename_target }

/-- The path names an entry of the directory. -/
def InDirectory (directory path : String) : Prop :=
  UnixPath.ChildOf (utf8 directory.toList ++ [UnixPath.SEPARATOR]) (utf8 path.toList)

/-- A call removes or renames nothing but what its prompt was opened for, and renames it within its
directory. -/
def Confirmed : SftpCall → Prop
  | .remove _ path is_dir => ∃ target, s.delete_target = some target ∧ target.path = path ∧
      target.is_dir = is_dir
  | .rename _ old_path new_path => ∃ target, s.rename_target = some target ∧
      target.path = old_path ∧ InDirectory target.directory new_path
  | _ => True

end Step

end Prompted

/-- What a removal depends on. -/
def Target.victim (target : Target) : String × Bool := (target.path, target.is_dir)

/-- What a renaming depends on. -/
def Target.place (target : Target) : String × String := (target.path, target.directory)

namespace Prompted

variable (platform : SftpPlatform) (s : Prompted) (turn : SftpTurn)

/-- While a prompt stays open, the entry it was opened for stays where the prompt looks for it, and
the new name of a renaming is a name. -/
structure Undisturbed : Prop where
  delete : ∀ browser browser', s.browser = some browser →
    (s.step platform turn).browser = some browser' → browser.confirm_delete.isSome = true →
    browser'.confirm_delete.isSome = true → s.chosen .delete turn.event = none →
    (browser'.target browser'.selected_index).map Target.victim =
      (browser.target browser.selected_index).map Target.victim
  rename : ∀ browser browser' idx name name', s.browser = some browser →
    (s.step platform turn).browser = some browser' → browser.rename_target = some (idx, name) →
    browser'.rename_target = some (idx, name') → s.chosen .rename turn.event = none →
    (browser'.target idx).map Target.place = (browser.target idx).map Target.place
  name : ∀ browser idx name, s.browser = some browser → browser.mkdir_input = none →
    browser.rename_target = some (idx, name) → (∃ event, turn.event = .key event ∧
    event.key = "enter") → trim name = "" ∨ UnixPath.OneName (utf8 (trim name).toList)

end Prompted

/-- The call removes nothing and renames nothing. -/
def SftpCall.Harmless : SftpCall → Prop
  | .remove _ _ _ | .rename _ _ _ => False
  | _ => True

/-- Only harmless calls, and the prompts as they were. -/
structure Plain (browser : SftpBrowserState) (result : SftpBrowserState × List SftpCall) : Prop where
  calls : ∀ call ∈ result.2, call.Harmless
  confirm_delete : result.1.confirm_delete = browser.confirm_delete
  rename_target : result.1.rename_target = browser.rename_target

section Plain

variable (platform : SftpPlatform) (answers : SftpAnswers) (browser : SftpBrowserState)

theorem refresh_plain : Plain browser (browser.sftp_refresh_current platform answers) := by
  refine ⟨fun call hcall => ?_, ?_, ?_⟩
  · rw [List.mem_singleton.mp hcall]
    trivial
  all_goals
    unfold SftpBrowserState.sftp_refresh_current SftpBrowserState.apply_listing_result
    cases answers.read_dir <;> rfl

theorem navigate_plain (path : String) :
    Plain browser (browser.sftp_navigate platform answers path) := by
  have h := refresh_plain platform answers { browser with
    path_history := browser.path_history ++ [browser.current_path]
    current_path := path
    selected_index := 0
    scroll_offset := 0 }
  exact ⟨h.calls, h.confirm_delete, h.rename_target⟩

theorem navigate_up_plain : Plain browser (browser.sftp_navigate_up platform answers) := by
  unfold SftpBrowserState.sftp_navigate_up
  split
  · exact navigate_plain platform answers browser _
  · exact ⟨nofun, rfl, rfl⟩

theorem download_harmless :
    ∀ call ∈ browser.sftp_download_selected platform answers, call.Harmless := by
  unfold SftpBrowserState.sftp_download_selected
  cases browser.selected_entry with
  | none => exact nofun
  | some entry =>
    dsimp only
    split
    · exact nofun
    · cases answers.read_file <;> simp [SftpCall.Harmless]

theorem open_entry_plain (is_dir : Bool) (name path : String) :
    Plain browser (browser.open_entry platform answers is_dir name path) := by
  unfold SftpBrowserState.open_entry
  split
  · exact navigate_up_plain platform answers browser
  split
  · exact navigate_plain platform answers browser path
  · exact ⟨download_harmless platform answers browser, rfl, rfl⟩

theorem click_row_plain (idx : Nat) (path : String) (click_count : Nat) :
    Plain browser (browser.click_row platform answers idx path click_count) := by
  unfold SftpBrowserState.click_row
  dsimp only
  split
  · split
    · have h := open_entry_plain platform answers { browser with selected_index := idx }
      exact ⟨(h _ _ _).calls, (h _ _ _).confirm_delete, (h _ _ _).rename_target⟩
    · exact ⟨nofun, rfl, rfl⟩
  · exact ⟨nofun, rfl, rfl⟩

theorem mkdir_plain : Plain browser (browser.sftp_mkdir_confirm platform answers) := by
  unfold SftpBrowserState.sftp_mkdir_confirm
  split
  · split
    · exact ⟨nofun, rfl, rfl⟩
    · have h := refresh_plain platform answers { browser with mkdir_input := none }
      exact ⟨List.forall_mem_cons.mpr ⟨trivial, h.calls⟩, h.confirm_delete, h.rename_target⟩
  · exact ⟨nofun, rfl, rfl⟩

end Plain

/-- A prompt that is open now was open before; text typed aside, it is the same one. -/
def PromptsKept (browser browser' : Option SftpBrowserState) : Prop :=
  ∀ b', browser' = some b' →
    (b'.confirm_delete.isSome = true → ∃ b, browser = some b ∧ b.confirm_delete.isSome = true) ∧
    ∀ idx name', b'.rename_target = some (idx, name') →
      ∃ b name, browser = some b ∧ b.rename_target = some (idx, name)

/-- The event opens a prompt for the selected entry. -/
def Opens (browser : Option SftpBrowserState) (event : SftpEvent) : Prop :=
  ∃ b command, browser = some b ∧ event.command b = some command ∧
    (command = .delete ∨ command = .rename) ∧ b.selected_entry.isSome = true

/-- What an event can do. -/
inductive Effect (browser : Option SftpBrowserState) (event : SftpEvent) :
    Option SftpBrowserState × List SftpCall → Prop
  | plain {browser' : Option SftpBrowserState} {calls : List SftpCall}
      (hopens : ¬ Opens browser event) (hcalls : ∀ call ∈ calls, call.Harmless)
      (hprompts : PromptsKept browser browser') : Effect browser event (browser', calls)
  | opened_delete {b : SftpBrowserState} {entry : SftpEntry} (hbrowser : browser = some b)
      (hcommand : event.command b = some .delete) (hselected : b.selected_entry = some entry) :
      Effect browser event (some { b with confirm_delete := some entry.name }, [])
  | opened_rename {b : SftpBrowserState} {entry : SftpEntry} (hbrowser : browser = some b)
      (hcommand : event.command b = some .rename) (hselected : b.selected_entry = some entry) :
      Effect browser event
        (some { b with rename_target := some (b.selected_index, entry.name) }, [])
  | removed {b : SftpBrowserState} {entry : SftpEntry} {browser' : Option SftpBrowserState}
      {calls : List SftpCall} (hopens : ¬ Opens browser event) (hbrowser : browser = some b)
      (hconfirm : b.confirm_delete.isSome = true) (hselected : b.selected_entry = some entry)
      (hcalls : ∀ call ∈ calls, call.Harmless) (hprompts : PromptsKept browser browser') :
      Effect browser event (browser', .remove b.session_id entry.path entry.is_dir :: calls)
  | renamed {b : SftpBrowserState} {idx : Nat} {name : String} {entry : SftpEntry}
      {browser' : Option SftpBrowserState} {calls : List SftpCall}
      (hopens : ¬ Opens browser event) (hbrowser : browser = some b) (hmkdir : b.mkdir_input = none)
      (htarget : b.rename_target = some (idx, name)) (hname : trim name ≠ "")
      (hkey : ∃ key, event = .key key ∧ key.key = "enter") (hentry : b.entries[idx]? = some entry)
      (hcalls : ∀ call ∈ calls, call.Harmless) (hprompts : PromptsKept browser browser') :
      Effect browser event (browser',
        .rename b.session_id entry.path (entry_path b.current_path (trim name)) :: calls)

section Effects

variable {platform : SftpPlatform} {answers : SftpAnswers} {browser : SftpBrowserState}
variable {event : SftpEvent}

theorem Plain.prompts_kept {result : SftpBrowserState × List SftpCall} (h : Plain browser result) :
    PromptsKept (some browser) (some result.1) := by
  rintro _ ⟨⟩
  constructor
  · intro hconfirm
    exact ⟨browser, rfl, h.confirm_delete ▸ hconfirm⟩
  · intro idx name htarget
    exact ⟨browser, name, rfl, h.rename_target ▸ htarget⟩

theorem Plain.effect {result : SftpBrowserState × List SftpCall} (h : Plain browser result)
    (hopens : ¬ Opens (some browser) event) : Effect (some browser) event (result.map some id) :=
  .plain hopens h.calls h.prompts_kept

theorem Plain.quiet {left : SftpBrowserState} (h : Plain browser (left, []))
    (hopens : ¬ Opens (some browser) event) : Effect (some browser) event (some left, []) :=
  h.effect hopens

/-- A command other than the two that open prompts. -/
theorem not_opens_of_command {command : SftpCommand} (hcommand : event.command browser = some command)
    (hdelete : command ≠ .delete) (hrename : command ≠ .rename) : ¬ Opens (some browser) event := by
  rintro ⟨b, other, ⟨⟩, hother, hopens, -⟩
  rw [hcommand, Option.some.injEq] at hother
  subst other
  exact hopens.elim hdelete hrename

theorem not_opens_of_none (hcommand : event.command browser = none) :
    ¬ Opens (some browser) event := by
  rintro ⟨b, other, ⟨⟩, hother, -⟩
  rw [hcommand] at hother
  cases hother

theorem not_opens_unselected (hselected : browser.selected_entry = none) :
    ¬ Opens (some browser) event := by
  rintro ⟨b, other, ⟨⟩, -, -, hsome⟩
  rw [hselected] at hsome
  cases hsome

theorem run_command_effect {command : SftpCommand}
    (hcommand : event.command browser = some command) :
    Effect (some browser) event (browser.run_command platform answers command) := by
  have hsame : Plain browser (browser, []) := ⟨nofun, rfl, rfl⟩
  cases command with
  | close => exact .plain (not_opens_of_command hcommand nofun nofun) nofun nofun
  | select_previous =>
    exact Plain.quiet ⟨nofun, rfl, rfl⟩
      (not_opens_of_command hcommand nofun nofun)
  | select_next =>
    unfold SftpBrowserState.run_command
    dsimp only
    split
    · exact hsame.effect (not_opens_of_command hcommand nofun nofun)
    · exact Plain.quiet ⟨nofun, rfl, rfl⟩
        (not_opens_of_command hcommand nofun nofun)
  | open_selected =>
    unfold SftpBrowserState.run_command
    dsimp only
    split
    · exact (open_entry_plain platform answers browser _ _ _).effect
        (not_opens_of_command hcommand nofun nofun)
    · exact hsame.effect (not_opens_of_command hcommand nofun nofun)
  | navigate_up =>
    exact (navigate_up_plain platform answers browser).effect
      (not_opens_of_command hcommand nofun nofun)
  | delete =>
    unfold SftpBrowserState.run_command
    dsimp only
    split
    · rename_i entry hselected
      exact .opened_delete rfl hcommand hselected
    · rename_i hselected
      exact hsame.effect (not_opens_unselected hselected)
  | mkdir =>
    exact Plain.quiet ⟨nofun, rfl, rfl⟩
      (not_opens_of_command hcommand nofun nofun)
  | rename =>
    unfold SftpBrowserState.run_command
    dsimp only
    split
    · rename_i entry hselected
      exact .opened_rename rfl hcommand hselected
    · rename_i hselected
      exact hsame.effect (not_opens_unselected hselected)
  | refresh =>
    exact (refresh_plain platform answers browser).effect
      (not_opens_of_command hcommand nofun nofun)
  | cycle_sort =>
    exact Plain.quiet ⟨nofun, rfl, rfl⟩
      (not_opens_of_command hcommand nofun nofun)
  | download =>
    exact .plain (not_opens_of_command hcommand nofun nofun)
      (download_harmless platform answers browser) hsame.prompts_kept

theorem delete_effect {key : KeyDownEvent} (hopens : ¬ Opens (some browser) (.key key))
    (hconfirm : browser.confirm_delete.isSome = true) :
    Effect (some browser) (.key key)
      ((browser.sftp_delete_selected platform answers).map some id) := by
  unfold SftpBrowserState.sftp_delete_selected
  split
  · rename_i entry hselected
    have h := refresh_plain platform answers { browser with confirm_delete := none }
    refine .removed hopens rfl hconfirm hselected h.calls ?_
    rintro _ ⟨⟩
    constructor
    · intro hsome
      exact nomatch (congrArg Option.isSome h.confirm_delete).symm.trans hsome
    · intro idx name htarget
      exact ⟨browser, name, rfl, h.rename_target ▸ htarget⟩
  · exact Plain.quiet ⟨nofun, rfl, rfl⟩ hopens

theorem rename_effect {key : KeyDownEvent} {idx : Nat} {name : String}
    (hopens : ¬ Opens (some browser) (.key key)) (hmkdir : browser.mkdir_input = none)
    (htarget : browser.rename_target = some (idx, name)) (hkey : key.key = "enter") :
    Effect (some browser) (.key key)
      ((browser.sftp_rename_confirm platform answers).map some id) := by
  have hsame : Plain browser (browser, []) := ⟨nofun, rfl, rfl⟩
  unfold SftpBrowserState.sftp_rename_confirm
  rw [htarget]
  dsimp only
  split
  · exact hsame.effect hopens
  rename_i hname
  split
  · rename_i entry hentry
    have h := refresh_plain platform answers { browser with rename_target := none }
    refine .renamed hopens rfl hmkdir htarget hname ⟨key, rfl, hkey⟩ hentry h.calls ?_
    rintro _ ⟨⟩
    constructor
    · intro hsome
      exact ⟨browser, rfl, h.confirm_delete ▸ hsome⟩
    · intro idx name htarget
      exact nomatch h.rename_target.symm.trans htarget
  · exact hsame.effect hopens

theorem key_effect (key : KeyDownEvent) :
    Effect (some browser) (.key key) (browser.handle_sftp_key platform answers key) := by
  unfold SftpBrowserState.handle_sftp_key
  split
  · rename_i input hmkdir
    have hopens : ¬ Opens (some browser) (.key key) :=
      not_opens_of_none (by unfold SftpEvent.command; rw [hmkdir])
    split
    · exact Plain.quiet ⟨nofun, rfl, rfl⟩ hopens
    · exact (mkdir_plain platform answers browser).effect hopens
    · exact Plain.quiet ⟨nofun, rfl, rfl⟩ hopens
  · rename_i idx name hmkdir htarget
    have hopens : ¬ Opens (some browser) (.key key) :=
      not_opens_of_none (by unfold SftpEvent.command; rw [hmkdir, htarget])
    split
    · refine .plain hopens nofun ?_
      rintro _ ⟨⟩
      exact ⟨fun hsome => ⟨browser, rfl, hsome⟩, nofun⟩
    · rename_i hkey
      exact rename_effect hopens hmkdir htarget hkey
    · refine .plain hopens nofun ?_
      rintro _ ⟨⟩
      refine ⟨fun hsome => ⟨browser, rfl, hsome⟩, ?_⟩
      rintro _ _ ⟨⟩
      exact ⟨browser, name, rfl, htarget⟩
  · rename_i hmkdir htarget hconfirm
    have hopens : ¬ Opens (some browser) (.key key) :=
      not_opens_of_none (by unfold SftpEvent.command; rw [hmkdir, htarget, hconfirm])
    split
    · exact delete_effect hopens (by rw [hconfirm]; rfl)
    · refine .plain hopens nofun ?_
      rintro _ ⟨⟩
      exact ⟨nofun, fun idx name' h => ⟨browser, name', rfl, h⟩⟩
  · rename_i hmkdir htarget hconfirm
    split
    · rename_i command hcommand
      refine run_command_effect ?_
      unfold SftpEvent.command
      rw [hmkdir, htarget, hconfirm]
      exact hcommand
    · rename_i hcommand
      refine Plain.quiet ⟨nofun, rfl, rfl⟩ (not_opens_of_none ?_)
      unfold SftpEvent.command
      rw [hmkdir, htarget, hconfirm]
      exact hcommand

theorem sftp_event_effect (browser : Option SftpBrowserState) (event : SftpEvent) :
    Effect browser event (sftp_event platform answers browser event) := by
  have hclosed : ∀ event, Effect none event (none, []) :=
    fun event => .plain (fun ⟨_, _, h, _⟩ => nomatch h) nofun nofun
  cases event with
  | open_sftp_browser session_id label =>
    have hopens : ¬ Opens browser (.open_sftp_browser session_id label) :=
      fun ⟨_, _, _, h, _⟩ => nomatch h
    have h := refresh_plain platform answers (SftpBrowserState.new session_id label answers.home)
    refine .plain hopens (List.forall_mem_cons.mpr ⟨trivial, h.calls⟩) ?_
    rintro _ ⟨⟩
    constructor
    · intro hsome
      exact nomatch (congrArg Option.isSome h.confirm_delete).symm.trans hsome
    · intro idx name htarget
      exact nomatch h.rename_target.symm.trans htarget
  | key key =>
    cases browser with
    | none => exact hclosed _
    | some browser => exact key_effect key
  | row idx path click_count =>
    cases browser with
    | none => exact hclosed _
    | some browser =>
      exact (click_row_plain platform answers browser idx path click_count).effect
        (not_opens_of_none rfl)
  | breadcrumb path =>
    cases browser with
    | none => exact hclosed _
    | some browser =>
      exact (navigate_plain platform answers browser path).effect (not_opens_of_none rfl)
  | toolbar command =>
    cases browser with
    | none => exact hclosed _
    | some browser => exact run_command_effect rfl
  | close_sftp_browser => exact .plain (fun ⟨_, _, _, h, _⟩ => nomatch h) nofun nofun
  | close_session id =>
    refine .plain (fun ⟨_, _, _, h, _⟩ => nomatch h) nofun ?_
    intro b hb
    have hsame := (Option.filter_eq_some_iff.mp hb).1
    exact ⟨fun hsome => ⟨b, hsame, hsome⟩, fun idx name h => ⟨b, name, hsame, h⟩⟩

end Effects

/-- Every open prompt finds the entry it was opened for. -/
structure Aimed (s : Prompted) : Prop where
  delete : ∀ b, s.browser = some b → b.confirm_delete.isSome = true →
    (b.target b.selected_index).map Target.victim = s.delete_target.map Target.victim
  rename : ∀ b idx name, s.browser = some b → b.rename_target = some (idx, name) →
    (b.target idx).map Target.place = s.rename_target.map Target.place

namespace Prompted

variable {platform : SftpPlatform} {s : Prompted} {turn : SftpTurn}

theorem chosen_of_not_opens {event : SftpEvent} (h : ¬ Opens s.browser event)
    {command : SftpCommand} (hcommand : command = .delete ∨ command = .rename) :
    s.chosen command event = none := by
  unfold chosen
  rw [Option.bind_eq_none_iff]
  intro b hb
  split
  · rename_i hrun
    cases hselected : b.selected_entry with
    | none => exact congrArg (Option.map _) hselected
    | some entry => exact absurd ⟨b, command, hb, hrun, hcommand, by rw [hselected]; rfl⟩ h
  · rfl

theorem chosen_of_command {event : SftpEvent} {b : SftpBrowserState} {command : SftpCommand}
    (hbrowser : s.browser = some b) (hcommand : event.command b = some command) :
    s.chosen command event = b.target b.selected_index := by
  unfold chosen
  rw [hbrowser, Option.bind_some, if_pos hcommand]

theorem chosen_of_other {event : SftpEvent} {b : SftpBrowserState} {command other : SftpCommand}
    (hbrowser : s.browser = some b) (hcommand : event.command b = some command)
    (hne : command ≠ other) : s.chosen other event = none := by
  unfold chosen
  rw [hbrowser, Option.bind_some, hcommand, if_neg (fun h => hne (Option.some.inj h))]

theorem target_of_entry {b : SftpBrowserState} {idx : Nat} {entry : SftpEntry}
    (h : b.entries[idx]? = some entry) :
    b.target idx = some ⟨entry.path, entry.is_dir, b.current_path⟩ := by
  unfold SftpBrowserState.target
  rw [h]
  rfl

/-- A step that opens no prompt keeps the open ones on their entries. -/
theorem aimed_of_prompts_kept (h : Aimed s) (hu : Undisturbed platform s turn)
    (hopens : ¬ Opens s.browser turn.event)
    (hprompts : PromptsKept s.browser (s.step platform turn).browser) :
    Aimed (s.step platform turn) := by
  have hdelete := chosen_of_not_opens (s := s) hopens (.inl rfl)
  have hrename := chosen_of_not_opens (s := s) hopens (.inr rfl)
  constructor
  · intro b' hb' hsome'
    obtain ⟨b, hb, hsome⟩ := (hprompts b' hb').1 hsome'
    change _ = ((s.chosen .delete turn.event).or s.delete_target).map Target.victim
    rw [hdelete, Option.none_or, hu.delete b b' hb hb' hsome hsome' hdelete]
    exact h.delete b hb hsome
  · intro b' idx name' hb' htarget'
    obtain ⟨b, name, hb, htarget⟩ := (hprompts b' hb').2 idx name' htarget'
    change _ = ((s.chosen .rename turn.event).or s.rename_target).map Target.place
    rw [hrename, Option.none_or, hu.rename b b' idx name name' hb hb' htarget htarget' hrename]
    exact h.rename b idx name hb htarget

theorem aimed_step (h : Aimed s) (hu : Undisturbed platform s turn) :
    Aimed (s.step platform turn) := by
  have heffect : Effect s.browser turn.event
      (sftp_event platform turn.answers s.browser turn.event) := sftp_event_effect _ _
  have hstep : (s.step platform turn).browser =
    (sftp_event platform turn.answers s.browser turn.event).1 := rfl
  generalize sftp_event platform turn.answers s.browser turn.event = result at heffect hstep
  cases heffect with
  | plain hopens hcalls hprompts => exact aimed_of_prompts_kept h hu hopens (hstep ▸ hprompts)
  | removed hopens hbrowser hconfirm hselected hcalls hprompts =>
    exact aimed_of_prompts_kept h hu hopens (hstep ▸ hprompts)
  | renamed hopens hbrowser hmkdir htarget hname hkey hentry hcalls hprompts =>
    exact aimed_of_prompts_kept h hu hopens (hstep ▸ hprompts)
  | @opened_delete b entry hbrowser hcommand hselected =>
    have hdelete := chosen_of_command hbrowser hcommand
    have hrename : s.chosen .rename turn.event = none :=
      chosen_of_other hbrowser hcommand nofun
    constructor
    · intro b' hb' _
      cases hstep.symm.trans hb'
      change _ = ((s.chosen .delete turn.event).or s.delete_target).map Target.victim
      rw [hdelete, target_of_entry hselected]
      exact congrArg (Option.map _) (target_of_entry hselected)
    · intro b' idx name hb' htarget
      cases hstep.symm.trans hb'
      change _ = ((s.chosen .rename turn.event).or s.rename_target).map Target.place
      rw [hrename, Option.none_or]
      exact h.rename b idx name hbrowser htarget
  | @opened_rename b entry hbrowser hcommand hselected =>
    have hrename := chosen_of_command hbrowser hcommand
    have hdelete : s.chosen .delete turn.event = none :=
      chosen_of_other hbrowser hcommand nofun
    constructor
    · intro b' hb' hsome
      cases hstep.symm.trans hb'
      change _ = ((s.chosen .delete turn.event).or s.delete_target).map Target.victim
      rw [hdelete, Option.none_or]
      exact h.delete b hbrowser hsome
    · intro b' idx name hb' htarget
      cases hstep.symm.trans hb'
      cases htarget
      change _ = ((s.chosen .rename turn.event).or s.rename_target).map Target.place
      rw [hrename, target_of_entry hselected]
      exact congrArg (Option.map _) (target_of_entry hselected)

theorem confirmed_of_harmless {call : SftpCall} (h : call.Harmless) : s.Confirmed call := by
  cases call <;> first | exact h.elim | trivial

/-- What a name becomes in the directory that it is put into. -/
theorem inDirectory_entry_path (directory name : String) :
    InDirectory directory (entry_path directory name) ↔ UnixPath.OneName (utf8 name.toList) := by
  have happend : ∀ a b : String, utf8 (a ++ b).toList = utf8 a.toList ++ utf8 b.toList := by
    intro a b
    unfold utf8
    rw [String.toList_append, List.flatMap_append]
  unfold InDirectory entry_path
  split
  · rename_i hroot
    subst hroot
    have hdir : UnixPath.components (utf8 "/".toList ++ [UnixPath.SEPARATOR]) =
      UnixPath.components ([] ++ [UnixPath.SEPARATOR]) := by decide
    rw [happend, UnixPath.childOf_iff, hdir, ← UnixPath.childOf_iff]
    exact UnixPath.childOf_append_iff
  · rw [happend, happend, List.append_assoc]
    exact UnixPath.childOf_append_iff

theorem calls_confirmed (h : Aimed s) (hu : Undisturbed platform s turn) :
    ∀ call ∈ s.calls platform turn, s.Confirmed call := by
  have heffect : Effect s.browser turn.event
      (sftp_event platform turn.answers s.browser turn.event) := sftp_event_effect _ _
  unfold calls
  generalize sftp_event platform turn.answers s.browser turn.event = result at heffect
  cases heffect with
  | plain hopens hcalls hprompts => exact fun call hcall => confirmed_of_harmless (hcalls call hcall)
  | opened_delete hbrowser hcommand hselected => exact nofun
  | opened_rename hbrowser hcommand hselected => exact nofun
  | @removed b entry browser' calls hopens hbrowser hconfirm hselected hcalls hprompts =>
    refine List.forall_mem_cons.mpr
      ⟨?_, fun call hcall => confirmed_of_harmless (hcalls call hcall)⟩
    have haim := h.delete b hbrowser hconfirm
    rw [target_of_entry hselected, Option.map_some, eq_comm, Option.map_eq_some_iff] at haim
    obtain ⟨target, htarget, hvictim⟩ := haim
    exact ⟨target, htarget, (Prod.mk.inj hvictim).1, (Prod.mk.inj hvictim).2⟩
  | @renamed b idx name entry browser' calls hopens hbrowser hmkdir htarget hname hkey hentry hcalls
      hprompts =>
    refine List.forall_mem_cons.mpr
      ⟨?_, fun call hcall => confirmed_of_harmless (hcalls call hcall)⟩
    have haim := h.rename b idx name hbrowser htarget
    rw [target_of_entry hentry, Option.map_some, eq_comm, Option.map_eq_some_iff] at haim
    obtain ⟨target, htarget', hplace⟩ := haim
    obtain ⟨hpath, hdirectory⟩ := Prod.mk.inj hplace
    refine ⟨target, htarget', hpath, ?_⟩
    rw [hdirectory, inDirectory_entry_path]
    exact (hu.name b idx name hbrowser hmkdir htarget hkey).resolve_left hname

/-- Before the first browser is opened. -/
def closed : Prompted := ⟨none, none, none⟩

/-- Every run of events in which no prompt loses its entry while it is open and every entry is given
a proper name: only what a prompt was opened for is removed or renamed, and within its directory. -/
theorem only_targets_touched (platform : SftpPlatform) (turns : List SftpTurn)
    (h : EveryStep (fun s turn => some (s.step platform turn)) (Undisturbed platform) closed turns) :
    EveryStep (fun s turn => some (s.step platform turn))
      (fun s turn => ∀ call ∈ s.calls platform turn, s.Confirmed call) closed turns := by
  refine h.keeps (K := Aimed) ?_ ⟨nofun, nofun⟩
  rintro s turn _ haimed ⟨⟩ hu
  exact ⟨calls_confirmed haimed hu, aimed_step haimed hu⟩

section Sample

def no_downloads : SftpPlatform := ⟨id, none⟩

/-- A server that lists two files. -/
def two_files : SftpAnswers :=
  { read_dir := .ok [⟨"draft", false, none, none, none⟩, ⟨"final", false, none, none, none⟩] }

def press (key : String) : SftpTurn := ⟨.key ⟨key, none, false, false⟩, two_files⟩

def open_web : SftpTurn := ⟨.open_sftp_browser 1 "web", two_files⟩

def click_final : SftpTurn := ⟨.row 1 "/final" 1, two_files⟩

def listing : Prompted :=
  { browser := some
      { session_id := 1
        session_label := "web"
        current_path := "/"
        entries := sftp_list_dir "/"
          [⟨"draft", false, none, none, none⟩, ⟨"final", false, none, none, none⟩] }
    delete_target := none
    rename_target := none }

/-- The browser asks whether to delete the first file; the file with this index is selected. -/
def asking (selected_index : Nat) : Prompted :=
  { browser := listing.browser.map fun browser =>
      { browser with selected_index, confirm_delete := some "draft" }
    delete_target := some ⟨"/draft", false, "/"⟩
    rename_target := none }

theorem draft_deleted_touched :
    EveryStep (fun s turn => some (s.step no_downloads turn))
      (fun s turn => ∀ call ∈ s.calls no_downloads turn, s.Confirmed call) closed
      [open_web, press "delete", press "y"] := by
  have hlisting : closed.step no_downloads open_web = listing := by decide
  have hasking : listing.step no_downloads (press "delete") = asking 0 := by decide
  refine only_targets_touched no_downloads _ ?_
  rintro _ ⟨⟩
  rw [hlisting]
  refine ⟨⟨?_, ?_, ?_⟩, ?_⟩
  · rintro _ _ ⟨⟩
  · rintro _ _ _ _ _ ⟨⟩
  · rintro _ _ _ ⟨⟩
  rintro _ ⟨⟩
  rw [hasking]
  refine ⟨⟨?_, ?_, ?_⟩, ?_⟩
  · rintro _ _ ⟨⟩ _ ⟨⟩
  · rintro _ _ _ _ _ ⟨⟩ _ ⟨⟩
  · rintro _ _ _ ⟨⟩ _ ⟨⟩
  rintro _ ⟨⟩
  refine ⟨⟨?_, ?_, ?_⟩, trivial⟩
  · rintro _ _ ⟨⟩ ⟨⟩ _ ⟨⟩
  · rintro _ _ _ _ _ ⟨⟩ _ ⟨⟩
  · rintro _ _ _ ⟨⟩ _ ⟨⟩

/-- The other file is clicked before the question is answered. -/
theorem other_file_deleted :
    ¬ EveryStep (fun s turn => some (s.step no_downloads turn))
      (fun s turn => ∀ call ∈ s.calls no_downloads turn, s.Confirmed call) closed
      ([open_web, press "delete", click_final] ++ [press "y"]) := by
  intro h
  have hlast := (everyStep_run (t := asking 1) h (by decide) _ rfl).1
  obtain ⟨target, htarget, hpath, -⟩ := hlast (.remove 1 "/final" false) (by decide)
  cases htarget
  revert hpath
  decide

end Sample

end Prompted

end Seance.Ui
