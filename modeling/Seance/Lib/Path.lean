import Mathlib.Data.List.Basic

namespace Seance.Lib

/-- A path of a Unix file system, by its bytes. -/
abbrev UnixPath := List UInt8

inductive Component
  | RootDir
  | CurDir
  | ParentDir
  | Normal (name : List UInt8)
  deriving DecidableEq

namespace UnixPath

/-- `/` -/
def SEPARATOR : UInt8 := 0x2f

def DOT : List UInt8 := [0x2e]

def DOT_DOT : List UInt8 := [0x2e, 0x2e]

def is_absolute (path : UnixPath) : Bool := path.head? = some SEPARATOR

/-- Empty and `.` segments say nothing. -/
def component (segment : List UInt8) : Option Component :=
  if segment = [] || segment = DOT then none
  else if segment = DOT_DOT then some .ParentDir
  else some (.Normal segment)

def segments (path : UnixPath) : List (List UInt8) := path.splitOn SEPARATOR

/-- The components of a path behind its root. -/
def names (path : UnixPath) : List Component := path.segments.filterMap component

/-- Where the path starts; a leading `.` is kept. -/
def start (path : UnixPath) : List Component :=
  if path.is_absolute then [.RootDir]
  else if path.segments.head? = some DOT then [.CurDir]
  else []

def components (path : UnixPath) : List Component := path.start ++ path.names

def parent (path : UnixPath) : Option (List Component) :=
  match path.components.getLast? with
  | none | some .RootDir => none
  | some _ => some path.components.dropLast

def file_name (path : UnixPath) : Option (List UInt8) :=
  match path.components.getLast? with
  | some (.Normal name) => some name
  | _ => none

/-- A name without what follows its last dot; a dot at its start is a part of it. -/
def stem (name : List UInt8) : List UInt8 :=
  let before := ((name.reverse.dropWhile (fun byte => [byte] ≠ DOT)).drop 1).reverse
  if before = [] then name else before

def file_stem (path : UnixPath) : Option (List UInt8) := path.file_name.map stem

/-- An absolute name takes the place of the directory. -/
def join (dir name : UnixPath) : UnixPath :=
  if name.is_absolute then name
  else if dir.getLast?.all (· = SEPARATOR) then dir ++ name
  else dir ++ SEPARATOR :: name

/-- The path names an entry of the directory itself. -/
def ChildOf (dir path : UnixPath) : Prop :=
  path.parent = some dir.components ∧ path.file_name.isSome = true

instance (dir path : UnixPath) : Decidable (ChildOf dir path) := inferInstanceAs (Decidable (_ ∧ _))

/-- Read relative to a directory, the path is one name. -/
def OneName (path : UnixPath) : Prop := ∃ name, path.names = [.Normal name]

theorem childOf_iff {dir path : UnixPath} :
    ChildOf dir path ↔ ∃ name, path.components = dir.components ++ [.Normal name] := by
  unfold ChildOf parent file_name
  constructor
  · rintro ⟨hparent, hname⟩
    cases hlast : path.components.getLast? with
    | none =>
      rw [hlast] at hname
      cases hname
    | some last =>
      cases last with
      | Normal name =>
        rw [hlast] at hparent
        obtain ⟨init, hinit⟩ := List.getLast?_eq_some_iff.mp hlast
        refine ⟨name, ?_⟩
        rw [hinit, List.dropLast_concat] at hparent
        rw [hinit, Option.some.inj hparent]
      | _ =>
        rw [hlast] at hname
        cases hname
  · rintro ⟨name, h⟩
    simp [h]

section Join

variable {dir name : UnixPath}

theorem segments_append (dir name : UnixPath) :
    (dir ++ SEPARATOR :: name).segments = dir.segments ++ name.segments :=
  List.splitOnP_append_cons dir name (beq_self_eq_true SEPARATOR)

theorem names_append (dir name : UnixPath) :
    (dir ++ SEPARATOR :: name).names = dir.names ++ name.names := by
  unfold names
  rw [segments_append, List.filterMap_append]

theorem start_append (dir name : UnixPath) :
    (dir ++ SEPARATOR :: name).start = (dir ++ [SEPARATOR]).start := by
  unfold start is_absolute
  rw [segments_append, segments_append]
  cases hsegments : dir.segments with
  | nil => exact absurd hsegments (List.splitOnP_ne_nil _ _)
  | cons first rest => cases dir <;> rfl

/-- A path behind a directory goes on from the directory. -/
theorem components_append (dir name : UnixPath) :
    (dir ++ SEPARATOR :: name).components = (dir ++ [SEPARATOR]).components ++ name.names := by
  unfold components
  rw [start_append, names_append, names_append]
  have hnil : names [] = [] := rfl
  rw [hnil, List.append_nil, List.append_assoc]

/-- A separator at the end of a directory says nothing. -/
theorem components_concat (h : dir ≠ []) : (dir ++ [SEPARATOR]).components = dir.components := by
  have hnil : names [] = [] := rfl
  unfold components
  rw [names_append, hnil, List.append_nil]
  unfold start is_absolute
  rw [segments_append]
  cases hsegments : dir.segments with
  | nil => exact absurd hsegments (List.splitOnP_ne_nil _ _)
  | cons first rest =>
    cases dir with
    | nil => exact absurd rfl h
    | cons b bs => rfl

theorem components_join (hdir : dir ≠ []) (hname : name.is_absolute = false) :
    (dir.join name).components = dir.components ++ name.names := by
  unfold join
  rw [if_neg (by simp [hname])]
  split
  · rename_i hlast
    obtain ⟨last, hlast'⟩ := Option.isSome_iff_exists.mp (List.getLast?_isSome.mpr hdir)
    rw [hlast', Option.all_some, decide_eq_true_iff] at hlast
    obtain ⟨init, hinit⟩ := List.getLast?_eq_some_iff.mp hlast'
    rw [hinit, hlast, List.append_assoc, List.singleton_append, components_append]
  · rw [components_append, components_concat hdir]

/-- What a name joined to a directory has to be for an entry of that directory. -/
theorem childOf_append_iff :
    ChildOf (dir ++ [SEPARATOR]) (dir ++ SEPARATOR :: name) ↔ name.OneName := by
  rw [childOf_iff, components_append]
  simp only [List.append_cancel_left_eq]
  exact Iff.rfl

theorem childOf_join_iff (hdir : dir ≠ []) :
    ChildOf dir (dir.join name) ↔
      (name.is_absolute = false ∧ name.OneName) ∨ name.is_absolute = true ∧ ChildOf dir name := by
  cases habsolute : name.is_absolute with
  | true =>
    unfold join
    simp [habsolute]
  | false =>
    rw [childOf_iff, components_join hdir habsolute]
    simp only [List.append_cancel_left_eq, true_and, Bool.false_eq_true, false_and, or_false]
    exact Iff.rfl

end Join

end UnixPath

end Seance.Lib
