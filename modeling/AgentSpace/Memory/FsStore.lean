/-
The filesystem store: `memory_rs/src/fs_store.rs`.

The disk is the regular files and the directories beneath the root. Every
operation that touches it goes through named steps (`IoStep`), and any step may
fail. Which steps fail in one call is part of its surroundings (`Env`), with the
clock, the process id and the value of the counter behind the temporary names.

`commit_move` is translated with its early returns as they stand: where the
source leaves a loop with `?`, no cleanup runs here either.
-/
import AgentSpace.Memory.Frontmatter

set_option autoImplicit false

namespace AgentSpace.Memory

open Text

/-! ## Files -/

/-- A path beneath the store root, as its components. -/
abbrev FilePath := List Text

instance transOrd_filePath : Std.TransOrd FilePath := inferInstance

/-- `PagePath::resolve_within`, when no component is a symlink. -/
def page_file (path : PagePath) : FilePath :=
  path.parent_segments ++ [path.file_stem ++ MARKDOWN_EXTENSION]

/-- The regular files with their bytes, and the directories. -/
structure Disk where
  files : Std.ExtTreeMap FilePath Bytes compare
  dirs : Std.ExtTreeSet FilePath compare

namespace Disk

/-- The bytes of a regular file. -/
def read (d : Disk) (path : FilePath) : Option Bytes := d.files[path]?

/-- `Path::is_file`. -/
def is_file (d : Disk) (path : FilePath) : Bool := (d.read path).isSome

/-- `Path::exists`. -/
def «exists» (d : Disk) (path : FilePath) : Bool := d.is_file path || d.dirs.contains path

/-- The disk with a file written, created or replaced. -/
def put (d : Disk) (path : FilePath) (bytes : Bytes) : Disk :=
  { d with files := d.files.insert path bytes }

/-- The disk with a file removed, if it is there. -/
def erase (d : Disk) (path : FilePath) : Disk := { d with files := d.files.erase path }

/-- The directories above and including a path. -/
def create_dir_all (d : Disk) (path : FilePath) : Disk :=
  { d with dirs := path.inits.foldl (fun dirs dir => dirs.insert dir) d.dirs }

variable (d : Disk)

theorem read_put (path q : FilePath) (bytes : Bytes) :
    (d.put path bytes).read q = if q = path then some bytes else d.read q := by
  rw [read, put, Std.ExtTreeMap.getElem?_insert]
  simp only [Std.LawfulEqCmp.compare_eq_iff_eq, eq_comm (a := path)]
  rfl

theorem read_erase (path q : FilePath) : (d.erase path).read q = if q = path then none else d.read q := by
  rw [read, erase, Std.ExtTreeMap.getElem?_erase]
  simp only [Std.LawfulEqCmp.compare_eq_iff_eq, eq_comm (a := path)]
  rfl

@[simp] theorem read_create_dir_all (path q : FilePath) : (d.create_dir_all path).read q = d.read q := rfl

end Disk

/-! ## Steps that may fail -/

/-- The points of a store call at which the file system may refuse. The numbered
ones belong to the replacements of a move, or to the files it stages: the
destination first, then the replacements. -/
inductive IoStep where
  | resolve
  | read
  | scan
  | create_dir
  | create
  | write
  | sync
  | rename
  | remove
  | resolve_source
  | resolve_destination
  | check_replacement (i : ℕ)
  | stage_resolve (i : ℕ)
  | stage_dir (k : ℕ)
  | stage_create (k : ℕ)
  | stage_write (k : ℕ)
  | stage_sync (k : ℕ)
  | backup_source
  | backup_resolve (i : ℕ)
  | backup (i : ℕ)
  | install (k : ℕ)
  | drop_temporary
  | cleanup_staged (temporary : FilePath)
  | restore (backup : FilePath)
  | remove_installed (path : FilePath)
  | remove_backup (backup : FilePath)
  deriving DecidableEq

/-- The steps that undo what a failed call has done. -/
def IoStep.IsRollback : IoStep → Prop
  | .drop_temporary | .cleanup_staged _ | .restore _ | .remove_installed _ => True
  | _ => False

instance (s : IoStep) : Decidable s.IsRollback := by
  cases s <;> first | exact isTrue trivial | exact isFalse id

/-- Why a step fails: the file system refuses it, or `reject_symlink` finds a
symlink on the path that is resolved. -/
inductive Failure where
  | io (message : String)
  | symlink (path : Text)
  deriving DecidableEq

/-- The error a failed step surfaces as. -/
def Failure.to_error : Failure → MemoryError
  | .io message => .Io message
  | .symlink path => .InvalidPath path "symlinks are not allowed inside the memory store"

/-- Which steps of a call fail, and why. -/
abbrev Faults := IoStep → Option Failure

/-- What surrounds one store call: the process and the value of its counter,
which name the temporary files, the steps that fail, and the clock. -/
structure Env where
  pid : ℕ
  counter : ℕ
  faults : Faults
  now : DateTime

/-- `temp_path_for` and `transaction_path_for`: a hidden file next to the
destination, named after it. -/
def transaction_path_for (env : Env) (destination : FilePath) (marker : Text) : FilePath :=
  destination.dropLast ++ ['.' :: destination.getLastD [] ++ '.' :: marker ++ '-'
    :: decimal env.pid ++ '-' :: decimal env.counter]

/-- A step that changes the disk unless it fails. -/
def attempt (faults : Faults) (step : IoStep) (d : Disk) (change : Disk → Disk) :
    Except MemoryError Unit × Disk :=
  match faults step with
  | some failure => (.error failure.to_error, d)
  | none => (.ok (), change d)

/-- `std::fs::remove_file` with its result ignored. -/
def remove_ignored (faults : Faults) (step : IoStep) (d : Disk) (path : FilePath) : Disk :=
  (attempt faults step d (·.erase path)).2

/-- `std::fs::rename`: the file takes the place of what is at the new path. -/
def rename_file (faults : Faults) (step : IoStep) (d : Disk) (current target : FilePath) :
    Except MemoryError Unit × Disk :=
  match faults step with
  | some failure => (.error failure.to_error, d)
  | none =>
    match d.read current with
    | none => (.error (.Io "No such file or directory"), d)
    | some bytes => (.ok (), (d.erase current).put target bytes)

/-! ## Single-file operations -/

section Operations

variable (env : Env)

/-- `read_bytes`, without the revision. -/
def read_bytes (d : Disk) (path : PagePath) : Except MemoryError Bytes :=
  match env.faults .resolve with
  | some failure => .error failure.to_error
  | none =>
    match env.faults .read with
    | some failure => .error failure.to_error
    | none => ok_or (d.read (page_file path)) (.NotFound path.as_str)

/-- `exists`. -/
def page_exists (d : Disk) (path : PagePath) : Except MemoryError Bool :=
  match env.faults .resolve with
  | some failure => .error failure.to_error
  | none => .ok (d.is_file (page_file path))

/-- `File::create`, `write_all` and `sync_all` on a temporary file, as the closures
of `write_atomically` and `stage_change` run them. -/
def write_temporary (at_create at_write at_sync : IoStep) (d : Disk) (temporary : FilePath)
    (bytes : Bytes) : Except MemoryError Unit × Disk :=
  match attempt env.faults at_create d (·.put temporary ByteArray.empty) with
  | (.error e, d) => (.error e, d)
  | (.ok (), d) =>
    match attempt env.faults at_write d (·.put temporary bytes) with
    | (.error e, d) => (.error e, d)
    | (.ok (), d) => attempt env.faults at_sync d id

/-- `write_atomically`. -/
def write_atomically (d : Disk) (temp_path destination : FilePath) (bytes : Bytes) :
    Except MemoryError Unit × Disk :=
  match write_temporary env .create .write .sync d temp_path bytes with
  | (.error e, d) => (.error e, remove_ignored env.faults .drop_temporary d temp_path)
  | (.ok (), d) =>
    match rename_file env.faults .rename d temp_path destination with
    | (.error e, d) => (.error e, remove_ignored env.faults .drop_temporary d temp_path)
    | (.ok (), d) => (.ok (), d)

/-- `write_bytes`. -/
def write_bytes (d : Disk) (path : PagePath) (bytes : Bytes) : Except MemoryError Unit × Disk :=
  match env.faults .resolve with
  | some failure => (.error failure.to_error, d)
  | none =>
    let full_path := page_file path
    match attempt env.faults .create_dir d (·.create_dir_all full_path.dropLast) with
    | (.error e, d) => (.error e, d)
    | (.ok (), d) =>
      write_atomically env d (transaction_path_for env full_path "tmp".toList) full_path bytes

/-- `remove_file`. -/
def remove_file (d : Disk) (path : PagePath) : Except MemoryError Unit × Disk :=
  match env.faults .resolve with
  | some failure => (.error failure.to_error, d)
  | none =>
    match d.read (page_file path) with
    | none => (.error (.NotFound path.as_str), d)
    | some _ => attempt env.faults .remove d (·.erase (page_file path))

/-! ## Listing -/

/-- `Path::extension` of a file name. -/
def extension (name : Text) : Option Text :=
  let after := name.reverse.takeWhile (· != '.')
  let before := (name.reverse.dropWhile (· != '.')).tail
  if '.' ∈ name ∧ before ≠ [] then some after.reverse else none

/-- The page a file found by `walk` is, if its name is a valid page path. -/
def scanned_page (path : FilePath) : Option PagePath :=
  if (extension (path.getLastD [])) = some "md".toList then
    (PagePath.parse (join ['/'] path)).toOption
  else none

/-- `ScannedFile`: a file under its path relative to the root, and the page it is. -/
structure ScannedFile where
  relative_path : Text
  parsed : Option PagePath
  deriving DecidableEq

/-- What `walk` pushes for a file: nothing if it is not a Markdown file. -/
def scanned_file (path : FilePath) : Option ScannedFile :=
  if extension (path.getLastD []) = some "md".toList then
    some ⟨join ['/'] path, (PagePath.parse (join ['/'] path)).toOption⟩
  else none

theorem scanned_file_bind_parsed (path : FilePath) :
    (scanned_file path).bind ScannedFile.parsed = scanned_page path := by
  unfold scanned_file scanned_page
  by_cases h : extension (path.getLastD []) = some "md".toList
  · rw [if_pos h, if_pos h, Option.bind_some]
  · rw [if_neg h, if_neg h, Option.bind_none]

/-- The order `scan` sorts by. -/
def scanned_le (a b : ScannedFile) : Prop := (compare a.relative_path b.relative_path).isLE

instance (a b : ScannedFile) : Decidable (scanned_le a b) := inferInstanceAs (Decidable (_ = true))

/-- `scan`. -/
def scan (d : Disk) : Except MemoryError (List ScannedFile) :=
  match env.faults .scan with
  | some failure => .error failure.to_error
  | none => .ok ((d.files.keys.filterMap scanned_file).insertionSort scanned_le)

/-- The order of `PagePath`: its segments, lexicographically. -/
def page_le (p q : PagePath) : Prop := (compare p.segments q.segments).isLE

instance (p q : PagePath) : Decidable (page_le p q) := inferInstanceAs (Decidable (_ = true))

/-- `list_pages` over `scan`. -/
def list_pages (d : Disk) : Except MemoryError (List PagePath) :=
  match env.faults .scan with
  | some failure => .error failure.to_error
  | none => .ok ((d.files.keys.filterMap scanned_page).insertionSort page_le)

/-! ## The move transaction -/

/-- `cleanup_staged`. -/
def cleanup_staged (d : Disk) (staged : List (FilePath × FilePath)) : Disk :=
  staged.foldl (fun d s => remove_ignored env.faults (.cleanup_staged s.1) d s.1) d

/-- `restore_backups`: in reverse order. -/
def restore_backups (d : Disk) (backups : List (FilePath × FilePath)) : Disk :=
  backups.foldr (fun b d => (rename_file env.faults (.restore b.1) d b.1 b.2).2) d

/-- `remove_installed`: in reverse order. -/
def remove_installed (d : Disk) (installed : List FilePath) : Disk :=
  installed.foldr (fun path d => remove_ignored env.faults (.remove_installed path) d path) d

/-- `stage_change`, for the `k`-th staged file. -/
def stage_change (d : Disk) (k : ℕ) (destination : FilePath) (bytes : Bytes)
    (staged : List (FilePath × FilePath)) : Except MemoryError (List (FilePath × FilePath)) × Disk :=
  match attempt env.faults (.stage_dir k) d (·.create_dir_all destination.dropLast) with
  | (.error e, d) => (.error e, d)
  | (.ok (), d) =>
    let temporary := transaction_path_for env destination "stage".toList
    match write_temporary env (.stage_create k) (.stage_write k) (.stage_sync k) d temporary
        bytes with
    | (.error e, d) => (.error e, remove_ignored env.faults .drop_temporary d temporary)
    | (.ok (), d) => (.ok (staged ++ [(temporary, destination)]), d)

/-- `backup_file`. -/
def backup_file (d : Disk) (step : IoStep) (original : FilePath) (backups : List (FilePath × FilePath)) :
    Except MemoryError (List (FilePath × FilePath)) × Disk :=
  let backup := transaction_path_for env original "backup".toList
  match rename_file env.faults step d original backup with
  | (.error e, d) => (.error e, d)
  | (.ok (), d) => (.ok (backups ++ [(backup, original)]), d)

/-- The loop of `commit_move` that checks the replacements; `seen` is the set of
paths met so far and `i` the number of the next one. -/
def check_replacements (d : Disk) (source destination : PagePath) (seen : List PagePath) (i : ℕ) :
    List (PagePath × Bytes) → Except MemoryError Unit
  | [] => .ok ()
  | (path, _) :: rest =>
    if path = source ∨ path = destination ∨ path ∈ seen then
      .error (.InvalidPath path.as_str
        "move transaction contains a duplicate or reserved replacement path")
    else
      match env.faults (.check_replacement i) with
      | some failure => .error failure.to_error
      | none =>
        if d.is_file (page_file path) then
          check_replacements d source destination (path :: seen) (i + 1) rest
        else .error (.NotFound path.as_str)

/-- The loop of `commit_move` that stages the replacements. A path that does not
resolve leaves it at once; only a failed `stage_change` cleans up. -/
def stage_replacements (d : Disk) (i : ℕ) (staged : List (FilePath × FilePath)) :
    List (PagePath × Bytes) → Except MemoryError (List (FilePath × FilePath)) × Disk
  | [] => (.ok staged, d)
  | (path, bytes) :: rest =>
    match env.faults (.stage_resolve i) with
    | some failure => (.error failure.to_error, d)
    | none =>
      match stage_change env d (i + 1) (page_file path) bytes staged with
      | (.error e, d) => (.error e, cleanup_staged env d staged)
      | (.ok staged, d) => stage_replacements d (i + 1) staged rest

/-- The loop of `commit_move` that backs the replaced files up. Again a path that
does not resolve leaves it at once. -/
def backup_replacements (d : Disk) (i : ℕ) (staged backups : List (FilePath × FilePath)) :
    List (PagePath × Bytes) → Except MemoryError (List (FilePath × FilePath)) × Disk
  | [] => (.ok backups, d)
  | (path, _) :: rest =>
    match env.faults (.backup_resolve i) with
    | some failure => (.error failure.to_error, d)
    | none =>
      match backup_file env d (.backup i) (page_file path) backups with
      | (.error e, d) =>
        (.error e, cleanup_staged env (restore_backups env d backups) staged)
      | (.ok backups, d) => backup_replacements d (i + 1) staged backups rest

/-- The loop of `commit_move` that renames the staged files into place. -/
def install_staged (d : Disk) (k : ℕ) (staged backups : List (FilePath × FilePath))
    (installed : List FilePath) :
    List (FilePath × FilePath) → Except MemoryError Unit × Disk
  | [] => (.ok (), d)
  | (temporary, destination) :: rest =>
    match rename_file env.faults (.install k) d temporary destination with
    | (.error e, d) =>
      (.error e, cleanup_staged env
        (restore_backups env (remove_installed env d installed) backups) staged)
    | (.ok (), d) =>
      install_staged d (k + 1) staged backups (installed ++ [destination]) rest

/-- The removal of the backups of a finished move, with the results ignored. -/
def remove_backups (d : Disk) (backups : List (FilePath × FilePath)) : Disk :=
  backups.foldl (fun d b => remove_ignored env.faults (.remove_backup b.1) d b.1) d

/-- The checks of `commit_move` before it touches the disk. -/
def check_move (d : Disk) (source destination : PagePath)
    (replacements : List (PagePath × Bytes)) : Except MemoryError Unit :=
  match env.faults .resolve_source with
  | some failure => .error failure.to_error
  | none =>
    match env.faults .resolve_destination with
    | some failure => .error failure.to_error
    | none =>
      if !d.is_file (page_file source) then .error (.NotFound source.as_str)
      else if d.exists (page_file destination) then
        .error (.AlreadyExists destination.as_str)
      else check_replacements env d source destination [] 0 replacements

/-- The part of `commit_move` after the checks. -/
def perform_move (d : Disk) (source destination : PagePath) (destination_bytes : Bytes)
    (replacements : List (PagePath × Bytes)) : Except MemoryError Unit × Disk :=
  match stage_change env d 0 (page_file destination) destination_bytes [] with
  | (.error e, d) => (.error e, d)
  | (.ok staged, d) =>
    match stage_replacements env d 0 staged replacements with
    | (.error e, d) => (.error e, d)
    | (.ok staged, d) =>
      match backup_file env d .backup_source (page_file source) [] with
      | (.error e, d) => (.error e, cleanup_staged env d staged)
      | (.ok backups, d) =>
        match backup_replacements env d 0 staged backups replacements with
        | (.error e, d) => (.error e, d)
        | (.ok backups, d) =>
          match install_staged env d 0 staged backups [] staged with
          | (.error e, d) => (.error e, d)
          | (.ok (), d) => (.ok (), remove_backups env d backups)

/-- `commit_move`. -/
def commit_move (d : Disk) (source destination : PagePath) (destination_bytes : Bytes)
    (replacements : List (PagePath × Bytes)) : Except MemoryError Unit × Disk :=
  match check_move env d source destination replacements with
  | .error e => (.error e, d)
  | .ok () => perform_move env d source destination destination_bytes replacements

end Operations

end AgentSpace.Memory
