import EasyRpc.FileTreeProofs
import EasyRpc.StringUtilProofs

/-! # Creating directories — `file_util::mkdir` along a path

    `mkdir` returns true at once where the path exists.  Otherwise it appends a slash and creates,
    at every separator but one in front, the directory named by the characters before it; what
    exists already is passed over, whatever its kind.  The logger takes the answer for a directory
    that it can open its files in.

    Everything that is created is a directory under one of these names, and a path that was
    missing is a directory in the end.  The answer is wrong exactly where the path names a file
    (`mkdir_truthful_iff`). -/

namespace EasyRpcDirectory

open EasyRpcStringUtil EasyRpcWire FileTree

variable {Key : Type} [DecidableEq Key] (n : Naming Str Key)
  (allows : Entries Key → Str → Bool)

/-- What a system call sees of a `std::string`. -/
def cStr (path : Str) : Str := path.takeWhile (· != 0)

/-- Slash and backslash. -/
def isSeparator (c : UInt8) : Bool := c == 47 || c == 92

/-- `is_exists`, which asks `access`. -/
def isExists (path : Str) (fs : Entries Key) : Bool := access n fs (cStr path)

/-- The body of the loop at the character `c` behind `before`; `false` returns from it. -/
def loopBody (before : Str) (c : UInt8) (fs : Entries Key) : Bool × Entries Key :=
  if isSeparator c then
    if before = [] then (true, fs)
    else if isExists n before fs then (true, fs)
    else FileTree.mkdir n allows (cStr before) fs
  else (true, fs)

/-- The loop over the rest of `dir_path`. -/
def mkdirLoop (before : Str) : Str → Entries Key → Bool × Entries Key
  | [], fs => (true, fs)
  | c :: rest, fs =>
      match loopBody n allows before c fs with
      | (true, fs') => mkdirLoop (before ++ [c]) rest fs'
      | (false, fs') => (false, fs')

/-- `file_util::mkdir`: nothing to do for a path that exists, else one prefix after the other. -/
def mkdir (path : Str) (fs : Entries Key) : Bool × Entries Key :=
  if path = [] then (false, fs)
  else if isExists n path fs then (true, fs)
  else
    -- no character is both: the slash is always appended
    let dirPath := if path.getLast? ≠ some 47 ∨ path.getLast? ≠ some 92 then path ++ [47] else path
    mkdirLoop n allows [] dirPath fs

/-- The name of the loggers. -/
def loggerName : Str := ascii "easyrpc"

/-- The directory of the log files. -/
def logPath (exePath : Str) : Str :=
  if exePath.getLast? = some 47 ∨ exePath.getLast? = some 92 then exePath ++ ascii "logs"
  else exePath ++ ascii "/logs"

/-- `logger_impl::create_log_file`, for the directory and the name of the executable; the empty
    name where it fails. -/
def createLogFile (exePath exeName : Str) (fs : Entries Key) : Str × Entries Key :=
  if exePath = [] then ([], fs)
  else
    match mkdir n allows (logPath exePath) fs with
    | (false, fs') => ([], fs')
    | (true, fs') =>
        if exeName = [] then ([], fs')
        else (logPath exePath ++ ascii "/" ++ exeName ++ ascii "_" ++ loggerName, fs')

/-- A prefix of the path that ends just before a separator, or the path itself. -/
def Along (path p : Str) : Prop :=
  p = path ∨ ∃ c rest, isSeparator c = true ∧ path = p ++ c :: rest

/-- `mkdir` answers true only for a directory, and adds only directories along the path. -/
structure Truthful (path : Str) (fs : Entries Key) (r : Bool × Entries Key) : Prop where
  is_dir : r.1 = true → r.2 (n.key (cStr path)) = some .dir
  adds : Grows (fun key => ∃ p, Along path p ∧ n.key (cStr p) = key) fs r.2

/-! ## The loop -/

/-- One step creates at most the directory named by the characters before a separator. -/
theorem loopBody_grows (before : Str) (c : UInt8) (fs : Entries Key) :
    Grows (fun key => isSeparator c = true ∧ key = n.key (cStr before)) fs
      (loopBody n allows before c fs).2 := by
  rw [loopBody]
  split
  · rename_i hsep
    split
    · exact Grows.refl _ fs
    · split
      · exact Grows.refl _ fs
      · exact (mkdir_grows n allows (cStr before) fs).mono fun _ hkey => ⟨hsep, hkey⟩
  · exact Grows.refl _ fs

/-- After a pass that went well, the prefix it was about exists. -/
theorem loopBody_exists {before : Str} {c : UInt8} {fs : Entries Key}
    (hsep : isSeparator c = true) (hne : before ≠ [])
    (h : (loopBody n allows before c fs).1 = true) :
    isExists n before (loopBody n allows before c fs).2 = true := by
  rw [loopBody, if_pos hsep, if_neg hne] at h ⊢
  split at h
  · rename_i hexists
    rw [if_pos hexists]
    exact hexists
  · rename_i hmissing
    rw [if_neg hmissing]
    exact mkdir_access n allows h

/-- What the loop adds, up to the slash at the end. -/
theorem mkdirLoop_grows (q before : Str) (fs : Entries Key) :
    Grows (fun key => ∃ p, Along (before ++ q) p ∧ n.key (cStr p) = key) fs
      (mkdirLoop n allows before (q ++ [47]) fs).2 := by
  induction q generalizing before fs with
  | nil =>
      have hbody := loopBody_grows n allows before 47 fs
      rw [List.nil_append, mkdirLoop, List.append_nil]
      rcases hr : loopBody n allows before 47 fs with ⟨ok, fs'⟩
      rw [hr] at hbody
      have halong : ∀ key, isSeparator 47 = true ∧ key = n.key (cStr before) →
          ∃ p, Along before p ∧ n.key (cStr p) = key := by
        rintro key ⟨-, rfl⟩
        exact ⟨before, Or.inl rfl, rfl⟩
      replace hbody := hbody.mono halong
      cases ok with
      | true => exact hbody
      | false => exact hbody
  | cons c q ih =>
      have hbody := loopBody_grows n allows before c fs
      rw [List.cons_append, mkdirLoop]
      rcases hr : loopBody n allows before c fs with ⟨ok, fs'⟩
      rw [hr] at hbody
      have halong : ∀ key, isSeparator c = true ∧ key = n.key (cStr before) →
          ∃ p, Along (before ++ c :: q) p ∧ n.key (cStr p) = key := by
        rintro key ⟨hsep, rfl⟩
        exact ⟨before, Or.inr ⟨c, q, hsep, rfl⟩, rfl⟩
      replace hbody := hbody.mono halong
      cases ok with
      | false => exact hbody
      | true =>
          have hrest := ih (before ++ [c]) fs'
          rw [List.append_assoc, List.singleton_append] at hrest
          exact hbody.trans hrest

/-- A loop that does not fail leaves the whole name existing. -/
theorem mkdirLoop_exists (q before : Str) (fs : Entries Key) (hne : before ++ q ≠ [])
    (h : (mkdirLoop n allows before (q ++ [47]) fs).1 = true) :
    isExists n (before ++ q) (mkdirLoop n allows before (q ++ [47]) fs).2 = true := by
  induction q generalizing before fs with
  | nil =>
      rw [List.append_nil] at hne ⊢
      rw [List.nil_append, mkdirLoop] at h ⊢
      rcases hr : loopBody n allows before 47 fs with ⟨ok, fs'⟩
      rw [hr] at h
      cases ok with
      | false => exact nomatch h
      | true =>
          have hok : (loopBody n allows before 47 fs).1 = true := by rw [hr]
          have hexists := loopBody_exists n allows rfl hne hok
          rw [hr] at hexists
          exact hexists
  | cons c q ih =>
      rw [List.cons_append, mkdirLoop] at h ⊢
      rcases hr : loopBody n allows before c fs with ⟨ok, fs'⟩
      rw [hr] at h
      cases ok with
      | false => exact nomatch h
      | true =>
          have happ : before ++ c :: q = before ++ [c] ++ q := by
            rw [List.append_assoc, List.singleton_append]
          rw [happ] at hne ⊢
          exact ih (before ++ [c]) fs' hne h

theorem mkdir_of_exists {path : Str} {fs : Entries Key} (hne : path ≠ [])
    (h : isExists n path fs = true) : mkdir n allows path fs = (true, fs) := by
  rw [mkdir, if_neg hne, if_pos h]

/-- For one that does not, the loop goes over the path with a slash at its end. -/
theorem mkdir_of_missing {path : Str} {fs : Entries Key} (hne : path ≠ [])
    (h : ¬ isExists n path fs = true) :
    mkdir n allows path fs = mkdirLoop n allows [] (path ++ [47]) fs := by
  rw [mkdir, if_neg hne, if_neg h]
  have hlast : path.getLast? ≠ some 47 ∨ path.getLast? ≠ some 92 := by
    by_cases h47 : path.getLast? = some 47
    · rw [h47]
      exact Or.inr (by decide)
    · exact Or.inl h47
  rw [if_pos hlast]

/-- What did not exist and is there after `mkdir` has returned true is a directory. -/
theorem mkdir_makes_dir {path : Str} {fs : Entries Key} (hne : path ≠ [])
    (hfile : fs (n.key (cStr path)) ≠ some .file) (h : (mkdir n allows path fs).1 = true) :
    (mkdir n allows path fs).2 (n.key (cStr path)) = some .dir := by
  by_cases hexists : isExists n path fs = true
  · rw [mkdir_of_exists n allows hne hexists]
    obtain ⟨kind, hkind⟩ := Option.isSome_iff_exists.mp hexists
    cases kind with
    | file => exact absurd hkind hfile
    | dir => exact hkind
  · rw [mkdir_of_missing n allows hne hexists] at h ⊢
    have hgrows := mkdirLoop_grows n allows path [] fs
    exact hgrows.dir_of_new (Option.not_isSome_iff_eq_none.mp hexists)
      (mkdirLoop_exists n allows path [] fs hne h)

theorem mkdir_adds {path : Str} {fs : Entries Key} (hne : path ≠ []) :
    Grows (fun key => ∃ p, Along path p ∧ n.key (cStr p) = key) fs
      (mkdir n allows path fs).2 := by
  by_cases hexists : isExists n path fs = true
  · rw [mkdir_of_exists n allows hne hexists]
    exact Grows.refl _ fs
  · rw [mkdir_of_missing n allows hne hexists]
    exact mkdirLoop_grows n allows path [] fs

/-- **MKDIR IS TRUTHFUL** exactly for a path that does not name a file. -/
theorem mkdir_truthful_iff {path : Str} (hne : path ≠ []) (fs : Entries Key) :
    Truthful n path fs (mkdir n allows path fs) ↔ fs (n.key (cStr path)) ≠ some .file := by
  constructor
  · intro h hfile
    have hexists : isExists n path fs = true := by
      rw [isExists, access, hfile]
      rfl
    have hdir := h.is_dir
    rw [mkdir_of_exists n allows hne hexists] at hdir
    exact nomatch hfile.symm.trans (hdir rfl)
  · intro h
    exact ⟨mkdir_makes_dir n allows hne h, mkdir_adds n allows hne⟩

/-- The path of a file split at its slashes, from the root. -/
def posix : Naming Str (List Str) where
  key path := (path.splitOnP (· == 47)).filter (· != [])
  parent key := if key = [] then none else some key.dropLast

/-- The empty file system. -/
def rootOnly : Entries (List Str) := fun key => if key = [] then some .dir else none

theorem mkdir_truthful_srv_logs :
    ascii "/srv/logs" ≠ []
    ∧ Truthful posix (ascii "/srv/logs") rootOnly
        (mkdir posix (fun _ _ => true) (ascii "/srv/logs") rootOnly) :=
  ⟨by decide, (mkdir_truthful_iff posix _ (by decide) rootOnly).mpr (by decide)⟩

/-- Where `/logs` is a file, `mkdir` says that it is there. -/
theorem mkdir_takes_file_for_dir :
    ¬ ∀ (Key : Type) [DecidableEq Key] (n : Naming Str Key) (allows : Entries Key → Str → Bool)
      (path : Str) (fs : Entries Key), path ≠ [] → Truthful n path fs (mkdir n allows path fs) := by
  intro h
  have htrue := (h (List Str) posix (fun _ _ => true) (ascii "/logs")
    (Function.update rootOnly [ascii "logs"] (some .file)) (by decide)).is_dir
  exact absurd (htrue (by decide)) (by decide)

/-- The logger goes on only with a directory, or with a file that stood in its place. -/
theorem createLogFile_dir {exePath exeName : Str} {fs : Entries Key}
    (h : (createLogFile n allows exePath exeName fs).1 ≠ [])
    (hfile : fs (n.key (cStr (logPath exePath))) ≠ some .file) :
    (createLogFile n allows exePath exeName fs).2 (n.key (cStr (logPath exePath)))
      = some .dir := by
  have hne : logPath exePath ≠ [] := by
    rw [logPath]
    split
    · exact List.append_ne_nil_of_right_ne_nil _ (by decide)
    · exact List.append_ne_nil_of_right_ne_nil _ (by decide)
  have hdir := mkdir_makes_dir n allows hne hfile
  rw [createLogFile] at h ⊢
  split at h
  · exact absurd rfl h
  · rename_i hexe
    rw [if_neg hexe]
    rcases hr : mkdir n allows (logPath exePath) fs with ⟨ok, fs'⟩
    rw [hr] at h hdir
    cases ok with
    | false => exact absurd rfl h
    | true =>
        dsimp only
        split
        · exact hdir rfl
        · exact hdir rfl

end EasyRpcDirectory
