import Seance.Lib.Path
import Seance.Lib.Select
import Seance.Terminal.Utf8
import Seance.Vault.Text

namespace Seance.Ui
open Lib
open Terminal (utf8)
open Vault (trim)

structure SftpEntry where
  name : String
  path : String
  is_dir : Bool
  size : Nat
  modified : Option Nat
  permissions : Option Nat
  deriving DecidableEq

/-- An entry of a directory as the server answers it. -/
structure DirEntry where
  file_name : String
  is_dir : Bool
  size : Option Nat
  mtime : Option Nat
  permissions : Option Nat
  deriving DecidableEq

/-- The path of a name in the directory with this path. -/
def entry_path (path name : String) : String := if path = "/" then "/" ++ name else path ++ "/" ++ name

def sftp_list_dir (path : String) (dir : List DirEntry) : List SftpEntry :=
  (dir.filter (fun entry => entry.file_name ≠ ".")).map fun entry =>
    { name := entry.file_name
      path := entry_path path entry.file_name
      is_dir := entry.is_dir
      size := entry.size.getD 0
      modified := entry.mtime
      permissions := entry.permissions }

inductive SftpSortMode
  | Name
  | Size
  | Modified
  deriving DecidableEq

def SftpSortMode.next : SftpSortMode → SftpSortMode
  | .Name => .Size
  | .Size => .Modified
  | .Modified => .Name

structure SftpBrowserState where
  session_id : Nat
  session_label : String
  current_path : String
  entries : List SftpEntry := []
  selected_index : Nat := 0
  sort_mode : SftpSortMode := .Name
  error : Option String := none
  path_history : List String := []
  confirm_delete : Option String := none
  rename_target : Option (Nat × String) := none
  mkdir_input : Option String := none
  scroll_offset : Nat := 0
  deriving DecidableEq

/-- What the browser takes from its platform. -/
structure SftpPlatform where
  to_lowercase : String → String
  download_dir : Option UnixPath

/-- What the server and the local disk answer to the calls of one event. -/
structure SftpAnswers where
  canonicalize : Except String String := .ok "/"
  read_dir : Except String (List DirEntry) := .ok []
  read_file : Except String (List UInt8) := .ok []

/-- Where the browser starts. -/
def SftpAnswers.home (answers : SftpAnswers) : String :=
  match answers.canonicalize with
  | .ok path => path
  | .error _ => "/"

/-- A call of the backend, or a write to the local disk. -/
inductive SftpCall
  | canonicalize (session_id : Nat) (path : String)
  | list_dir (session_id : Nat) (path : String)
  | read_file (session_id : Nat) (remote_path : String)
  | write (dest : UnixPath) (data : List UInt8)
  | mkdir (session_id : Nat) (path : String)
  | remove (session_id : Nat) (path : String) (is_dir : Bool)
  | rename (session_id : Nat) (old_path new_path : String)
  deriving DecidableEq

def compare_entries (platform : SftpPlatform) (mode : SftpSortMode) (a b : SftpEntry) : Ordering :=
  match a.is_dir, b.is_dir with
  | true, false => .lt
  | false, true => .gt
  | _, _ =>
    match mode with
    | .Name => compare (platform.to_lowercase a.name) (platform.to_lowercase b.name)
    | .Size => (compare a.size b.size).swap
    | .Modified => (compare (a.modified.getD 0) (b.modified.getD 0)).swap

namespace SftpBrowserState

def new (session_id : Nat) (session_label initial_path : String) : SftpBrowserState :=
  { session_id, session_label, current_path := initial_path }

section Browser

variable (platform : SftpPlatform) (browser : SftpBrowserState)

def selected_entry : Option SftpEntry := browser.entries[browser.selected_index]?

def sort_entries : SftpBrowserState :=
  { browser with entries := orderBy (compare_entries platform browser.sort_mode) browser.entries }

/-- `rfind` finds the last separator of what is left without those at the end. -/
def parent_path : Option String :=
  if browser.current_path = "/" then none
  else
    let trimmed := browser.current_path.toList.reverse.dropWhile (· = '/')
    match trimmed.dropWhile (· ≠ '/') with
    | _ :: before@(_ :: _) => some (String.ofList before.reverse)
    | _ => some "/"

def clamp_selection : SftpBrowserState :=
  { browser with selected_index := min browser.selected_index (browser.entries.length - 1) }

def apply_listing_result (result : Except String (List SftpEntry)) : SftpBrowserState :=
  match result with
  | .ok entries => clamp_selection { sort_entries platform { browser with entries } with error := none }
  | .error error => clamp_selection { browser with entries := [], error := some error }

def sftp_refresh_current (answers : SftpAnswers) : SftpBrowserState × List SftpCall :=
  (browser.apply_listing_result platform
      (answers.read_dir.map (sftp_list_dir browser.current_path)),
    [.list_dir browser.session_id browser.current_path])

def sftp_navigate (answers : SftpAnswers) (path : String) : SftpBrowserState × List SftpCall :=
  sftp_refresh_current platform
    { browser with
      path_history := browser.path_history ++ [browser.current_path]
      current_path := path
      selected_index := 0
      scroll_offset := 0 } answers

def sftp_navigate_up (answers : SftpAnswers) : SftpBrowserState × List SftpCall :=
  match browser.parent_path with
  | some parent => browser.sftp_navigate platform answers parent
  | none => (browser, [])

/-- Where a file of this name is downloaded to. -/
def download_dest (platform : SftpPlatform) (file_name : String) : UnixPath :=
  (platform.download_dir.getD UnixPath.DOT).join (utf8 file_name.toList)

/-- The calls of a download; the browser stays as it is. -/
def sftp_download_selected (answers : SftpAnswers) : List SftpCall :=
  match browser.selected_entry with
  | some entry =>
    if entry.is_dir then []
    else
      .read_file browser.session_id entry.path ::
        match answers.read_file with
        | .ok data => [.write (download_dest platform entry.name) data]
        | .error _ => []
  | none => []

def sftp_delete_selected (answers : SftpAnswers) : SftpBrowserState × List SftpCall :=
  match browser.selected_entry with
  | some entry =>
    let (browser', calls) :=
      sftp_refresh_current platform { browser with confirm_delete := none } answers
    (browser', .remove browser.session_id entry.path entry.is_dir :: calls)
  | none => (browser, [])

def sftp_mkdir_confirm (answers : SftpAnswers) : SftpBrowserState × List SftpCall :=
  match browser.mkdir_input with
  | some name =>
    if trim name = "" then (browser, [])
    else
      let (browser', calls) :=
        sftp_refresh_current platform { browser with mkdir_input := none } answers
      (browser', .mkdir browser.session_id (entry_path browser.current_path (trim name)) :: calls)
  | none => (browser, [])

def sftp_rename_confirm (answers : SftpAnswers) : SftpBrowserState × List SftpCall :=
  match browser.rename_target with
  | some (idx, new_name) =>
    if trim new_name = "" then (browser, [])
    else
      match browser.entries[idx]? with
      | some entry =>
        let (browser', calls) :=
          sftp_refresh_current platform { browser with rename_target := none } answers
        (browser', .rename browser.session_id entry.path
          (entry_path browser.current_path (trim new_name)) :: calls)
      | none => (browser, [])
  | none => (browser, [])

end Browser

end SftpBrowserState

structure KeyDownEvent where
  key : String
  key_char : Option String := none
  platform : Bool := false
  shift : Bool := false
  deriving DecidableEq

/-- What a key does while no prompt is open, or a button of the toolbar. -/
inductive SftpCommand
  | close
  | select_previous
  | select_next
  | open_selected
  | navigate_up
  | delete
  | mkdir
  | rename
  | refresh
  | cycle_sort
  | download
  deriving DecidableEq

def KeyDownEvent.command (event : KeyDownEvent) : Option SftpCommand :=
  match event.key with
  | "escape" => some .close
  | "up" | "k" => if event.platform then none else some .select_previous
  | "down" | "j" => if event.platform then none else some .select_next
  | "enter" => some .open_selected
  | "backspace" => some .navigate_up
  | "delete" => some .delete
  | "n" => if event.platform then none else some .mkdir
  | "r" =>
    if event.platform then some .refresh
    else if event.shift then none
    else some .rename
  | "s" => if event.platform then none else some .cycle_sort
  | _ => none

/-- The text of a prompt after a key that neither confirms nor leaves it. -/
def KeyDownEvent.edit (event : KeyDownEvent) (text : String) : String :=
  match event.key with
  | "backspace" => String.ofList text.toList.dropLast
  | _ =>
    match event.key_char with
    | some ch => text ++ ch
    | none => text

namespace SftpBrowserState

section Events

variable (platform : SftpPlatform) (answers : SftpAnswers) (browser : SftpBrowserState)

/-- A directory is entered and a file downloaded. -/
def open_entry (is_dir : Bool) (name path : String) : SftpBrowserState × List SftpCall :=
  if name = ".." then browser.sftp_navigate_up platform answers
  else if is_dir then browser.sftp_navigate platform answers path
  else (browser, browser.sftp_download_selected platform answers)

def run_command : SftpCommand → Option SftpBrowserState × List SftpCall
  | .close => (none, [])
  | .select_previous =>
    let selected_index := browser.selected_index - 1
    (some { browser with
      selected_index
      scroll_offset := min browser.scroll_offset selected_index }, [])
  | .select_next =>
    if browser.entries = [] then (some browser, [])
    else
      (some { browser with
        selected_index := min (browser.selected_index + 1) (browser.entries.length - 1) }, [])
  | .open_selected =>
    match browser.selected_entry with
    | some entry =>
      (browser.open_entry platform answers entry.is_dir entry.name entry.path).map some id
    | none => (some browser, [])
  | .navigate_up => (browser.sftp_navigate_up platform answers).map some id
  | .delete =>
    match browser.selected_entry with
    | some entry => (some { browser with confirm_delete := some entry.name }, [])
    | none => (some browser, [])
  | .mkdir => (some { browser with mkdir_input := some "" }, [])
  | .rename =>
    match browser.selected_entry with
    | some entry =>
      (some { browser with rename_target := some (browser.selected_index, entry.name) }, [])
    | none => (some browser, [])
  | .refresh => (browser.sftp_refresh_current platform answers).map some id
  | .cycle_sort =>
    (some (clamp_selection (sort_entries platform
      { browser with sort_mode := browser.sort_mode.next })), [])
  | .download => (some browser, browser.sftp_download_selected platform answers)

/-- The prompts take the keys one after the other. -/
def handle_sftp_key (event : KeyDownEvent) : Option SftpBrowserState × List SftpCall :=
  match browser.mkdir_input, browser.rename_target, browser.confirm_delete with
  | some input, _, _ =>
    match event.key with
    | "escape" => (some { browser with mkdir_input := none }, [])
    | "enter" => (browser.sftp_mkdir_confirm platform answers).map some id
    | _ => (some { browser with mkdir_input := some (event.edit input) }, [])
  | none, some (idx, name), _ =>
    match event.key with
    | "escape" => (some { browser with rename_target := none }, [])
    | "enter" => (browser.sftp_rename_confirm platform answers).map some id
    | _ => (some { browser with rename_target := some (idx, event.edit name) }, [])
  | none, none, some _ =>
    match event.key with
    | "y" => (browser.sftp_delete_selected platform answers).map some id
    | _ => (some { browser with confirm_delete := none }, [])
  | none, none, none =>
    match event.command with
    | some command => browser.run_command platform answers command
    | none => (some browser, [])

/-- A click on a row takes the row's path from when it was drawn. -/
def click_row (idx : Nat) (path : String) (click_count : Nat) : SftpBrowserState × List SftpCall :=
  let browser := { browser with selected_index := idx }
  if click_count = 2 then
    match browser.entries[idx]? with
    | some entry => browser.open_entry platform answers entry.is_dir entry.name path
    | none => (browser, [])
  else (browser, [])

end Events

end SftpBrowserState

inductive SftpEvent
  | open_sftp_browser (session_id : Nat) (label : String)
  | key (event : KeyDownEvent)
  | row (idx : Nat) (path : String) (click_count : Nat)
  | breadcrumb (path : String)
  | toolbar (command : SftpCommand)
  /-- the button back to the terminal -/
  | close_sftp_browser
  | close_session (id : Nat)
  deriving DecidableEq

/-- One event of the workspace, as far as the browser goes. -/
def sftp_event (platform : SftpPlatform) (answers : SftpAnswers) (browser : Option SftpBrowserState) :
    SftpEvent → Option SftpBrowserState × List SftpCall
  | .open_sftp_browser session_id label =>
    let (browser', calls) :=
      (SftpBrowserState.new session_id label answers.home).sftp_refresh_current platform answers
    (some browser', .canonicalize session_id "." :: calls)
  | .key event =>
    match browser with
    | some browser => browser.handle_sftp_key platform answers event
    | none => (none, [])
  | .row idx path click_count =>
    match browser with
    | some browser => (browser.click_row platform answers idx path click_count).map some id
    | none => (none, [])
  | .breadcrumb path =>
    match browser with
    | some browser => (browser.sftp_navigate platform answers path).map some id
    | none => (none, [])
  | .toolbar command =>
    match browser with
    | some browser => browser.run_command platform answers command
    | none => (none, [])
  | .close_sftp_browser => (none, [])
  | .close_session id => (browser.filter (fun browser => browser.session_id ≠ id), [])

/-- The platform names its download directory by an absolute path, or not at all. -/
def SftpPlatform.Absolute (platform : SftpPlatform) : Prop :=
  ∀ dir, platform.download_dir = some dir → dir.is_absolute = true

def SftpPlatform.downloads (platform : SftpPlatform) : UnixPath :=
  platform.download_dir.getD UnixPath.DOT

/-- A name that is one component, or the absolute path of an entry of the directory. -/
def Confined (dir : UnixPath) (name : String) : Prop :=
  (UnixPath.is_absolute (utf8 name.toList) = false ∧ UnixPath.OneName (utf8 name.toList)) ∨
    UnixPath.is_absolute (utf8 name.toList) = true ∧ dir.ChildOf (utf8 name.toList)

theorem SftpPlatform.Absolute.downloads_ne {platform : SftpPlatform} (h : platform.Absolute) :
    platform.downloads ≠ [] := by
  unfold SftpPlatform.downloads
  cases hdir : platform.download_dir with
  | none => exact List.cons_ne_nil _ _
  | some dir =>
    rintro rfl
    cases h [] hdir

section Download

variable {platform : SftpPlatform} {browser : SftpBrowserState} {entry : SftpEntry}

/-- A download writes one file, named by the entry, once its data has been read. -/
theorem mem_download_iff (hselected : browser.selected_entry = some entry)
    (hfile : entry.is_dir = false) {answers : SftpAnswers} {dest : UnixPath} {data : List UInt8} :
    .write dest data ∈ browser.sftp_download_selected platform answers ↔
      answers.read_file = .ok data ∧
        dest = SftpBrowserState.download_dest platform entry.name := by
  unfold SftpBrowserState.sftp_download_selected
  rw [hselected]
  simp only [hfile, Bool.false_eq_true, if_false, List.mem_cons, reduceCtorEq, false_or]
  cases hread : answers.read_file with
  | ok read =>
    simp only [List.mem_singleton, SftpCall.write.injEq, Except.ok.injEq]
    exact ⟨fun h => ⟨h.2.symm, h.1⟩, fun h => ⟨h.2, h.1.symm⟩⟩
  | error error => simp

/-- What is written for the selected file lies in the download directory itself exactly if the
name the server gave the file is confined to it. -/
theorem download_confined_iff (hplatform : platform.Absolute)
    (hselected : browser.selected_entry = some entry) (hfile : entry.is_dir = false) :
    (∀ answers dest data, .write dest data ∈ browser.sftp_download_selected platform answers →
      platform.downloads.ChildOf dest) ↔ Confined platform.downloads entry.name := by
  have hjoin : platform.downloads.ChildOf (platform.downloads.join (utf8 entry.name.toList)) ↔
      Confined platform.downloads entry.name := UnixPath.childOf_join_iff hplatform.downloads_ne
  constructor
  · intro h
    exact hjoin.mp (h { read_file := .ok [] } _ _ ((mem_download_iff hselected hfile).mpr ⟨rfl, rfl⟩))
  · intro h answers dest data hmem
    obtain ⟨-, rfl⟩ := (mem_download_iff hselected hfile).mp hmem
    exact hjoin.mpr h

end Download

section Sample

/-- `/home/anna/Downloads` -/
def anna : SftpPlatform := ⟨id, some (utf8 "/home/anna/Downloads".toList)⟩

/-- A server that lists one file. -/
def one_file (name : String) : SftpAnswers :=
  { read_dir := .ok [⟨name, false, some 3, none, none⟩], read_file := .ok [1, 2, 3] }

/-- The browser once it has been opened on such a server. -/
def one_file_browser (name : String) : SftpBrowserState :=
  { session_id := 1
    session_label := "web"
    current_path := "/"
    entries := [⟨name, "/" ++ name, false, 3, none, none⟩] }

theorem anna_absolute : anna.Absolute := by
  rintro dir ⟨⟩
  decide

theorem notes_download_confined :
    Confined anna.downloads "notes.txt" ∧ ∀ answers dest data, .write dest data ∈
      (one_file_browser "notes.txt").sftp_download_selected anna answers →
        anna.downloads.ChildOf dest := by
  have hselected : (one_file_browser "notes.txt").selected_entry =
      some ⟨"notes.txt", "/notes.txt", false, 3, none, none⟩ := rfl
  have hconfined : Confined anna.downloads "notes.txt" := .inl ⟨by decide, _, rfl⟩
  exact ⟨hconfined, (download_confined_iff anna_absolute hselected rfl).mpr hconfined⟩

/-- A server lists a file by a name that leads out of the directory it is downloaded to. -/
theorem download_escapes :
    sftp_event anna (one_file "../.profile") none (.open_sftp_browser 1 "web") =
      (some (one_file_browser "../.profile"), [.canonicalize 1 ".", .list_dir 1 "/"]) ∧
    ¬ ∀ dest data, .write dest data ∈
      (sftp_event anna (one_file "../.profile") (some (one_file_browser "../.profile"))
        (.key ⟨"enter", none, false, false⟩)).2 → anna.downloads.ChildOf dest := by
  refine ⟨by decide, fun h => ?_⟩
  have hescape := h (utf8 "/home/anna/Downloads/../.profile".toList) [1, 2, 3] (by decide)
  revert hescape
  decide

end Sample

end Seance.Ui
