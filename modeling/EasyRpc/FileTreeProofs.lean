import Mathlib.Logic.Function.Basic

/-! # File systems as maps — `access` and `mkdir` on entries

    A file system gives each entry its kind; names are resolved to entries by a naming scheme that
    the map does not depend on, so several names may stand for one entry.  `access` succeeds on
    every entry, `mkdir` only on a missing one whose parent is a directory, and only where
    whatever else the system asks for (permissions, space) is given.

    `Grows` is the frame of every sequence of these calls: entries are added, as directories, and
    nothing else changes. -/

namespace FileTree

/-- What a name can stand for. -/
inductive Kind where
  | file
  | dir
  deriving DecidableEq

/-- A file system, as far as directories are made in it. -/
abbrev Entries (Key : Type) := Key → Option Kind

/-- How names lead to entries, and where an entry's parent is. -/
structure Naming (Name Key : Type) where
  key : Name → Key
  parent : Key → Option Key

variable {Name Key : Type}

/-- Every difference is a new directory, with an entry among `added`. -/
def Grows (added : Key → Prop) (fs fs' : Entries Key) : Prop :=
  ∀ key, fs' key ≠ fs key → fs key = none ∧ fs' key = some .dir ∧ added key

theorem Grows.refl (added : Key → Prop) (fs : Entries Key) : Grows added fs fs :=
  fun _ hne => absurd rfl hne

theorem Grows.mono {added added' : Key → Prop} (h : ∀ key, added key → added' key)
    {fs fs' : Entries Key} (hgrows : Grows added fs fs') : Grows added' fs fs' := by
  intro key hne
  obtain ⟨hnone, hdir, hadded⟩ := hgrows key hne
  exact ⟨hnone, hdir, h key hadded⟩

/-- What is there stays. -/
theorem Grows.kept {added : Key → Prop} {fs fs' : Entries Key} (h : Grows added fs fs') {key : Key}
    {kind : Kind} (hkey : fs key = some kind) : fs' key = some kind := by
  by_cases heq : fs' key = fs key
  · exact heq.trans hkey
  · have hnone := (h key heq).1
    rw [hkey] at hnone
    exact nomatch hnone

/-- What is new is a directory. -/
theorem Grows.dir_of_new {added : Key → Prop} {fs fs' : Entries Key} (h : Grows added fs fs')
    {key : Key} (hold : fs key = none) (hnew : (fs' key).isSome = true) :
    fs' key = some .dir := by
  refine (h key ?_).2.1
  rw [hold]
  exact Option.isSome_iff_ne_none.mp hnew

theorem Grows.trans {added : Key → Prop} {fs fs' fs'' : Entries Key} (h : Grows added fs fs')
    (h' : Grows added fs' fs'') : Grows added fs fs'' := by
  intro key hne
  by_cases heq : fs' key = fs key
  · obtain ⟨hnone, hdir, hadded⟩ := h' key (by rw [heq]; exact hne)
    exact ⟨heq.symm.trans hnone, hdir, hadded⟩
  · obtain ⟨hnone, hdir, hadded⟩ := h key heq
    exact ⟨hnone, h'.kept hdir, hadded⟩

variable (n : Naming Name Key) (allows : Entries Key → Name → Bool)

/-- `access(path, 0)`: something is there, be it a file or a directory. -/
def access (fs : Entries Key) (path : Name) : Bool := (fs (n.key path)).isSome

/-- Whether the place where the name would go is a directory. -/
def inDirectory (fs : Entries Key) (path : Name) : Bool :=
  match n.parent (n.key path) with
  | none => false
  | some key => fs key == some .dir

variable [DecidableEq Key]

/-- Success or failure, and the file system afterwards. -/
def mkdir (path : Name) (fs : Entries Key) : Bool × Entries Key :=
  if fs (n.key path) = none ∧ inDirectory n fs path = true ∧ allows fs path = true then
    (true, Function.update fs (n.key path) (some .dir))
  else (false, fs)

/-- **MKDIR ADDS ITS ENTRY** where it succeeds, and nothing else either way. -/
theorem mkdir_grows (path : Name) (fs : Entries Key) :
    Grows (fun key => key = n.key path) fs (mkdir n allows path fs).2 := by
  rw [mkdir]
  split
  · rename_i hcond
    intro key hne
    by_cases hkey : key = n.key path
    · subst hkey
      exact ⟨hcond.1, Function.update_self _ _ _, rfl⟩
    · exact absurd (Function.update_of_ne hkey _ _) hne
  · exact Grows.refl _ fs

/-- After a `mkdir` that succeeded, the directory is there. -/
theorem mkdir_access {path : Name} {fs : Entries Key} (h : (mkdir n allows path fs).1 = true) :
    access n (mkdir n allows path fs).2 path = true := by
  rw [mkdir] at h ⊢
  split at h
  · rename_i hcond
    rw [if_pos hcond]
    show (Function.update fs (n.key path) (some Kind.dir) (n.key path)).isSome = true
    rw [Function.update_self]
    rfl
  · exact nomatch h

end FileTree
