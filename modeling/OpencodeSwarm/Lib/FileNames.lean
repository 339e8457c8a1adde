/-
  OpencodeSwarm.Lib.FileNames

  A directory as the calls of the runtime see it: names lead to files, and a file
  keeps its text when a name of it goes away.  A call that fails leaves
  everything as it was.
-/
import Mathlib.Logic.Function.Basic

namespace Posix

/-- Names and the texts of the files they lead to. -/
structure FileNames (Path File Text : Type*) where
  names : Path → Option File
  text : File → Text

namespace FileNames

variable {Path File Text : Type*}

/-- `readFileSync`. -/
def read (files : FileNames Path File Text) (path : Path) : Option Text :=
  (files.names path).map files.text

/-- One name, led elsewhere. -/
def setName [DecidableEq Path] (files : FileNames Path File Text) (path : Path)
    (file : Option File) : FileNames Path File Text :=
  { files with names := Function.update files.names path file }

/-- `writeSync(fd, text, 0)`: the file is written, whatever its names are. -/
def write [DecidableEq File] (files : FileNames Path File Text) (file : File) (text : Text) :
    FileNames Path File Text :=
  { files with text := Function.update files.text file text }

/-- `openSync(path, 'wx')`: the new file has the text `blank`. -/
def create [DecidableEq Path] [DecidableEq File] (files : FileNames Path File Text) (path : Path)
    (file : File) (blank : Text) : Option (FileNames Path File Text) :=
  match files.names path with
  | some _ => none
  | none => some ((files.write file blank).setName path (some file))

/-- `linkSync(source, target)`, which never replaces a name. -/
def link [DecidableEq Path] (files : FileNames Path File Text) (source target : Path) :
    Option (FileNames Path File Text) :=
  match files.names source, files.names target with
  | some file, none => some (files.setName target (some file))
  | _, _ => none

/-- `renameSync(source, target)`, of two different names; `target` is replaced. -/
def rename [DecidableEq Path] (files : FileNames Path File Text) (source target : Path) :
    Option (FileNames Path File Text) :=
  match files.names source with
  | none => none
  | some file => some ((files.setName source none).setName target (some file))

/-- `unlinkSync(path)`. -/
def unlink [DecidableEq Path] (files : FileNames Path File Text) (path : Path) :
    Option (FileNames Path File Text) :=
  match files.names path with
  | none => none
  | some _ => some (files.setName path none)

variable {files next : FileNames Path File Text} {path : Path} {file : File}

/-! ## Names and texts -/

section Names

variable [DecidableEq Path] {value : Option File}

@[simp] theorem setName_names_self : (files.setName path value).names path = value :=
  Function.update_self _ _ _

variable {other : Path}

theorem setName_names_of_ne (h : other ≠ path) :
    (files.setName path value).names other = files.names other :=
  Function.update_of_ne h _ _

theorem names_of_setName (h : (files.setName path value).names other = some file) :
    value = some file ∨ files.names other = some file := by
  by_cases hother : other = path
  · left
    rwa [hother, setName_names_self] at h
  · right
    rwa [setName_names_of_ne hother] at h

end Names

section Texts

variable [DecidableEq File] {text : Text}

@[simp] theorem write_text_self : (files.write file text).text file = text :=
  Function.update_self _ _ _

theorem write_text_of_ne {other : File} (h : other ≠ file) :
    (files.write file text).text other = files.text other :=
  Function.update_of_ne h _ _

end Texts

/-! ## What is read -/

theorem read_eq_some_iff {text : Text} :
    files.read path = some text ↔ ∃ file, files.names path = some file ∧ files.text file = text :=
  Option.map_eq_some_iff

theorem read_congr (hname : next.names path = files.names path)
    (htext : ∀ file, files.names path = some file → next.text file = files.text file) :
    next.read path = files.read path := by
  unfold read
  rw [hname]
  cases h : files.names path with
  | none => rfl
  | some file => rw [Option.map_some, Option.map_some, htext file h]

theorem read_setName_of_ne [DecidableEq Path] {other : Path} {value : Option File}
    (h : other ≠ path) : (files.setName path value).read other = files.read other :=
  read_congr (setName_names_of_ne h) fun _ _ => rfl

theorem read_write_of_ne [DecidableEq File] {text : Text} (h : files.names path ≠ some file) :
    (files.write file text).read path = files.read path := by
  refine read_congr rfl fun named hnamed => ?_
  have hne : named ≠ file := by
    rintro rfl
    exact h hnamed
  exact write_text_of_ne hne

theorem read_write_self [DecidableEq File] {text : Text} (h : files.names path = some file) :
    (files.write file text).read path = some text :=
  read_eq_some_iff.mpr ⟨file, h, write_text_self⟩

/-! ## What a call changes -/

theorem create_eq_some [DecidableEq Path] [DecidableEq File] {blank : Text}
    (h : files.create path file blank = some next) :
    files.names path = none ∧ next = (files.write file blank).setName path (some file) := by
  unfold create at h
  split at h
  · cases h
  rename_i hnone
  cases h
  exact ⟨hnone, rfl⟩

variable [DecidableEq Path] {source target : Path}

theorem link_eq_some (h : files.link source target = some next) :
    ∃ file, files.names source = some file ∧ files.names target = none
      ∧ next = files.setName target (some file) := by
  unfold link at h
  split at h
  · rename_i file hsource htarget
    cases h
    exact ⟨file, hsource, htarget, rfl⟩
  · cases h

theorem rename_eq_some (h : files.rename source target = some next) :
    ∃ file, files.names source = some file
      ∧ next = (files.setName source none).setName target (some file) := by
  unfold rename at h
  split at h
  · cases h
  rename_i file hsource
  cases h
  exact ⟨file, hsource, rfl⟩

theorem unlink_eq_some (h : files.unlink path = some next) : next = files.setName path none := by
  unfold unlink at h
  split at h
  · cases h
  cases h
  rfl

theorem unlink_eq_none (h : files.unlink path = none) : files.names path = none := by
  unfold unlink at h
  split at h
  · rename_i hnone
    exact hnone
  · cases h

theorem unlink_getD : (files.unlink path).getD files = files.setName path none := by
  cases h : files.unlink path with
  | some next => rw [Option.getD_some, unlink_eq_some h]
  | none =>
    have hsame : Function.update files.names path none = files.names := by
      rw [← unlink_eq_none h, Function.update_eq_self]
    rw [Option.getD_none, setName, hsame]

end FileNames

end Posix
