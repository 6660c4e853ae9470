/-
The skills of the agent host: `agent_host_rs/src/skills.rs`.

A skill is a directory of files, and its versions are JSON documents below
`.skill-versions`. The service runs one task at a time on the tree, under the registry's
lock; a task that fails leaves what it has done so far.
-/
import AgentSpace.Text
import AgentSpace.Lib.FileTree

set_option autoImplicit false

namespace AgentSpace.Skills

open Text Lib

/-! ## Data -/

/-- A path below the skills directory. -/
abbrev Path := List Text

/-- The tree below the skills directory. -/
abbrev Tree := FileTree Text Text

/-- The files of a skill, by their relative paths. -/
abbrev Files := Std.ExtTreeMap Text Text compare

/-- `SKILL_VERSIONS_DIR`. -/
def SKILL_VERSIONS_DIR : Text := ".skill-versions".toList

/-- `SkillSource`. -/
inductive SkillSource where
  | Builtin
  | User
  deriving DecidableEq

/-- `Skill`. -/
structure Skill where
  skill_id : Text
  files : Files
  source : SkillSource

/-- `SkillVersion`. -/
@[ext] structure SkillVersion where
  skill_id : Text
  version : UInt64
  created_at : Text
  files : Files

/-- `SkillError`, as far as the functions below return it. -/
inductive SkillError where
  | InvalidSkillId (skill_id : Text)
  | InvalidSkillFilePath (path : Text)
  | SkillNotFound (skill_id : Text)
  | SkillAlreadyExists (skill_id : Text)
  | BuiltinSkillReadOnly (skill_id : Text)
  | SkillVersionNotFound (skill_id : Text) (version : UInt64)
  | Io (operation : String) (path : Path) (source : FileError)
  | Json (operation : String) (path : Path) (source : String)

/-- What the service uses and the repository does not have: which paths the
operating system takes, and the JSON of a version. -/
structure Externals where
  accepts : Path → Bool
  to_vec_pretty : SkillVersion → Except String Text
  from_str : Text → Except String SkillVersion

/-- What is relied on of it: a path that is taken is taken up to any of its names, and
what is serialized is deserialized to the same version. -/
structure Externals.Lawful (ext : Externals) : Prop where
  accepts_dropLast : ∀ path, ext.accepts path = true → ext.accepts path.dropLast = true
  round_trip : ∀ version content, ext.to_vec_pretty version = .ok content →
    ext.from_str content = .ok version

/-! ## Tasks -/

/-- A task of the service. -/
abbrev Task := ExceptT SkillError (StateM Tree)

namespace Task

/-- What is read from the tree. -/
def look {α : Type} (f : Tree → Except SkillError α) : Task α :=
  ExceptT.mk fun t => (f t, t)

/-- An operation on the tree, whose error is reported with the operation and the
path. -/
def io (operation : String) (path : Path) (f : Tree → Except FileError Tree) : Task Unit :=
  ExceptT.mk fun t =>
    match f t with
    | .ok t' => (.ok (), t')
    | .error source => (.error (.Io operation path source), t)

/-- An early return with an error. -/
def return_error_if (condition : Prop) [Decidable condition] (error : SkillError) : Task Unit :=
  if condition then throw error else pure ()

section Runs

variable {α β : Type} {t t' : Tree}

variable {x : Task α} {f : α → Task β}

theorem run_bind_ok {b : β} (h : (x >>= f).run t = (.ok b, t')) :
    ∃ a t₁, x.run t = (.ok a, t₁) ∧ (f a).run t₁ = (.ok b, t') := by
  have hrun : (x >>= f).run t = match x.run t with
      | (.ok a, t₁) => (f a).run t₁
      | (.error e, t₁) => (.error e, t₁) := by
    show (do let a ← x.run; ExceptT.bindCont f a) t = _
    show ExceptT.bindCont f (x.run t).1 (x.run t).2 = _
    rcases x.run t with ⟨a | a, t₁⟩ <;> rfl
  rw [hrun] at h
  rcases hx : x.run t with ⟨e | a, t₁⟩
  · rw [hx] at h
    cases h
  · rw [hx] at h
    exact ⟨a, t₁, rfl, h⟩

theorem run_bind_of_ok {a : α} {t₁ : Tree}
    (h : x.run t = (.ok a, t₁)) : (x >>= f).run t = (f a).run t₁ := by
  show ExceptT.bindCont f (x.run t).1 (x.run t).2 = _
  rw [h]
  rfl

theorem run_bind_of_error {e : SkillError} {t₁ : Tree}
    (h : x.run t = (.error e, t₁)) : (x >>= f).run t = (.error e, t₁) := by
  show ExceptT.bindCont f (x.run t).1 (x.run t).2 = _
  rw [h]
  rfl

theorem run_io_ok_iff {operation : String} {path : Path} {f : Tree → Except FileError Tree} :
    (io operation path f).run t = (.ok (), t') ↔ f t = .ok t' := by
  show (match f t with
    | .ok t' => ((.ok (), t') : Except SkillError Unit × Tree)
    | .error source => (.error (.Io operation path source), t)) = _ ↔ _
  cases f t with
  | error e => simp
  | ok t₁ => simp

theorem run_look (f : Tree → Except SkillError α) : (look f).run t = (f t, t) := rfl

theorem run_look_ok {f : Tree → Except SkillError α} {a : α} (h : (look f).run t = (.ok a, t')) :
    f t = .ok a ∧ t' = t := by
  rw [run_look] at h
  exact ⟨congrArg Prod.fst h, (congrArg Prod.snd h).symm⟩

theorem run_return_error_if_ok {condition : Prop} [Decidable condition] {error : SkillError}
    (h : (return_error_if condition error).run t = (.ok (), t')) : ¬condition ∧ t' = t := by
  unfold return_error_if at h
  by_cases hc : condition
  · rw [if_pos hc] at h
    cases h
  · rw [if_neg hc] at h
    exact ⟨hc, (congrArg Prod.snd h).symm⟩

theorem run_return_error_if {condition : Prop} [Decidable condition] (error : SkillError)
    (h : ¬condition) : (return_error_if condition error).run t = (.ok (), t) := by
  unfold return_error_if
  rw [if_neg h]
  rfl

end Runs

end Task

/-! ## Identifiers and paths -/

/-- `validate_skill_id`. -/
def is_valid_skill_id (skill_id : Text) : Bool :=
  skill_id ≠ [] && (split '-' skill_id).all fun part =>
    part ≠ [] && part.all fun c => c.isLower || c.isDigit

/-- `validate_skill_id`, as a task. -/
def validate_skill_id (skill_id : Text) : Task Unit :=
  Task.return_error_if (¬is_valid_skill_id skill_id) (.InvalidSkillId skill_id)

/-- The fold of `validate_file_path`: whether a component names something, unless one
goes up. -/
def has_file_component (relative_path : Text) : Option Bool :=
  (split '/' relative_path).foldlM (fun has_file_component component =>
    if component = "..".toList then none
    else some (has_file_component || !(component = [] || component = ".".toList))) false

/-- `validate_file_path`; an absolute path is one that starts with a slash. -/
def is_valid_file_path (relative_path : Text) : Bool :=
  relative_path ≠ [] && relative_path.head? ≠ some '/' && (has_file_component relative_path).getD false

/-- `validate_file_paths`. -/
def validate_file_paths : List Text → Task Unit
  | [] => pure ()
  | path :: rest => do
    Task.return_error_if (¬is_valid_file_path path) (.InvalidSkillFilePath path)
    validate_file_paths rest

/-- `normalize_posix_relative_path`. -/
def normalize_posix_relative_path (relative_path : Text) : Path :=
  (split '/' relative_path).filter fun component => component ≠ [] && component ≠ ".".toList

/-- `SkillsService::skill_path`. -/
def skill_path (skill_id : Text) : Path := [skill_id]

/-- `SkillsService::skill_versions_dir`. -/
def skill_versions_dir (skill_id : Text) : Path := [SKILL_VERSIONS_DIR, skill_id]

/-- The name of a version's document. -/
def version_name (version : UInt64) : Text :=
  decimal_padded 20 version.toNat ++ ".json".toList

/-- `SkillsService::skill_version_path`. -/
def skill_version_path (skill_id : Text) (version : UInt64) : Path :=
  skill_versions_dir skill_id ++ [version_name version]

/-- `Path::file_stem` and `Path::extension` of a name. -/
def stem_and_extension (name : Text) : Text × Option Text :=
  match split_once '.' name.reverse with
  | some (extension, stem) =>
    if stem = [] then (name, none) else (stem.reverse, some extension.reverse)
  | none => (name, none)

/-! ## Files -/

section Files

variable (ext : Externals)

/-- `write_skill_files`. -/
def write_skill_files (skill_dir : Path) : List (Text × Text) → Task Unit
  | [] => pure ()
  | (relative_path, content) :: rest => do
    let file_path := skill_dir ++ normalize_posix_relative_path relative_path
    Task.io "create skill file parent dir" file_path.dropLast fun t =>
      t.create_dir_all ext.accepts file_path.dropLast
    Task.io "write skill file" file_path fun t => t.write ext.accepts file_path content
    write_skill_files skill_dir rest

end Files

/-- `posix_relative_path`. -/
def posix_relative_path (base_dir path : Path) : Text := join ['/'] (path.drop base_dir.length)

/-- `collect_skill_files`; the fuel bounds the depth of the recursion. -/
def collect_skill_files (t : Tree) (base_dir : Path) : ℕ → Path → Files → Files
  | 0, _, files => files
  | fuel + 1, current_dir, files =>
    (t.read_dir current_dir).foldl (fun files (name, node) =>
      match node with
      | .dir => collect_skill_files t base_dir fuel (current_dir ++ [name]) files
      | .file content =>
        files.insert (posix_relative_path base_dir (current_dir ++ [name])) content) files

/-- `read_skill_files`. -/
def read_skill_files (t : Tree) (skill_dir : Path) : Except SkillError Files :=
  if t.is_dir skill_dir then .ok (collect_skill_files t skill_dir (t.depth + 1) skill_dir ∅)
  else .error (.Io "read skill files" skill_dir .NotFound)

/-! ## Versions -/

section Versions

variable (ext : Externals)

/-- `read_skill_version`. -/
def read_skill_version (t : Tree) (path : Path) : Except SkillError SkillVersion :=
  match t.read path with
  | .error source => .error (.Io "read skill version" path source)
  | .ok content =>
    match ext.from_str content with
    | .error source => .error (.Json "parse skill version" path source)
    | .ok version => .ok version

/-- The loop body of `next_skill_version`. -/
def later_version (latest : UInt64) : Text × Node Text → UInt64
  | (_, .dir) => latest
  | (name, .file _) =>
    match parse_usize (stem_and_extension name).1 with
    | some version => max latest version
    | none => latest

/-- `next_skill_version`; the addition wraps, as it does in a release build. -/
def next_skill_version (t : Tree) (versions_dir : Path) : UInt64 :=
  (t.read_dir versions_dir).foldl later_version 0 + 1

end Versions

/-- `SkillsService`: the ids of the skills that come with the host. -/
structure SkillsService where
  builtin_ids : List Text

namespace SkillsService

variable (ext : Externals) (service : SkillsService)

/-- `is_builtin`. -/
def is_builtin (skill_id : Text) : Bool := skill_id ∈ service.builtin_ids

/-- `source_for`. -/
def source_for (skill_id : Text) : SkillSource :=
  if service.is_builtin skill_id then .Builtin else .User

/-- `ensure_user_skill_exists`. -/
def ensure_user_skill_exists (t : Tree) (skill_id : Text) : Except SkillError Unit :=
  if service.is_builtin skill_id then .error (.BuiltinSkillReadOnly skill_id)
  else if !t.is_dir (skill_path skill_id) then .error (.SkillNotFound skill_id)
  else .ok ()

/-- `skill_version_paths`. -/
def skill_version_paths (t : Tree) (skill_id : Text) : Except SkillError (List Path) :=
  if ¬is_valid_skill_id skill_id then .error (.InvalidSkillId skill_id)
  else
    match service.ensure_user_skill_exists t skill_id with
    | .error e => .error e
    | .ok () =>
      .ok ((t.read_dir (skill_versions_dir skill_id)).filterMap fun (name, node) =>
        match node with
        | .dir => none
        | .file _ =>
          if (stem_and_extension name).2 = some "json".toList then
            some (skill_versions_dir skill_id ++ [name])
          else none)

/-- The order of `sort_by_key`. -/
def version_le (v w : SkillVersion) : Prop := v.version ≤ w.version

instance : DecidableRel version_le := fun v w => inferInstanceAs (Decidable (v.version ≤ w.version))

/-- `list_skill_versions`. -/
def list_skill_versions (t : Tree) (skill_id : Text) : Except SkillError (List SkillVersion) := do
  let version_paths ← service.skill_version_paths t skill_id
  let versions ← version_paths.mapM (read_skill_version ext t)
  return versions.insertionSort version_le

/-- `save_skill_version`, at a time. -/
def save_skill_version (now : Text) (skill_id : Text) (files : Files) : Task SkillVersion := do
  Task.io "create skill versions dir" (skill_versions_dir skill_id) fun t =>
    t.create_dir_all ext.accepts (skill_versions_dir skill_id)
  let version ← Task.look fun t => .ok (next_skill_version t (skill_versions_dir skill_id))
  let snapshot : SkillVersion := ⟨skill_id, version, now, files⟩
  let content ← Task.look fun _ =>
    (ext.to_vec_pretty snapshot).mapError
      (.Json "serialize skill version" (skill_version_path skill_id version))
  Task.io "write skill version" (skill_version_path skill_id version) fun t =>
    t.write ext.accepts (skill_version_path skill_id version) content
  return snapshot

/-- `get_skill`. -/
def get_skill (t : Tree) (skill_id : Text) : Except SkillError Skill :=
  if ¬is_valid_skill_id skill_id then .error (.InvalidSkillId skill_id)
  else if !t.is_dir (skill_path skill_id) then .error (.SkillNotFound skill_id)
  else (read_skill_files t (skill_path skill_id)).map fun files =>
    ⟨skill_id, files, service.source_for skill_id⟩

/-- What `create_skill` and `update_skill` return. -/
def user_skill (t : Tree) (skill_id : Text) : Except SkillError Skill :=
  (read_skill_files t (skill_path skill_id)).map fun files => ⟨skill_id, files, .User⟩

/-- `create_skill`. The skills directory is the root of the tree, so it is there. -/
def create_skill (now : Text) (skill_id : Text) (files : Files) : Task Skill := do
  validate_skill_id skill_id
  Task.return_error_if (service.is_builtin skill_id) (.SkillAlreadyExists skill_id)
  let already_there ← Task.look fun t => .ok (t.exists (skill_path skill_id))
  Task.return_error_if already_there (.SkillAlreadyExists skill_id)
  validate_file_paths files.keys
  Task.io "create skill dir" (skill_path skill_id) fun t =>
    t.create_dir ext.accepts (skill_path skill_id)
  write_skill_files ext (skill_path skill_id) files.toList
  let _ ← save_skill_version ext now skill_id files
  Task.look fun t => user_skill t skill_id

/-- The first version of a skill that has files and no version: what is there. -/
def save_existing_files (now : Text) (skill_id : Text) (versions : List SkillVersion) : Task Unit :=
  if versions = [] then do
    let existing_files ← Task.look fun t => read_skill_files t (skill_path skill_id)
    let _ ← save_skill_version ext now skill_id existing_files
  else pure ()

/-- `update_skill`. -/
def update_skill (now : Text) (skill_id : Text) (files : Files) : Task Skill := do
  validate_skill_id skill_id
  Task.look fun t => service.ensure_user_skill_exists t skill_id
  validate_file_paths files.keys
  let versions ← Task.look fun t => service.list_skill_versions ext t skill_id
  save_existing_files ext now skill_id versions
  Task.io "remove skill dir" (skill_path skill_id) fun t => t.remove_dir_all (skill_path skill_id)
  Task.io "create skill dir" (skill_path skill_id) fun t =>
    t.create_dir_all ext.accepts (skill_path skill_id)
  write_skill_files ext (skill_path skill_id) files.toList
  let _ ← save_skill_version ext now skill_id files
  Task.look fun t => user_skill t skill_id

/-- `rollback_skill_version`. -/
def rollback_skill_version (now : Text) (skill_id : Text) (version : UInt64) : Task Skill := do
  validate_skill_id skill_id
  Task.look fun t => service.ensure_user_skill_exists t skill_id
  let snapshot_exists ← Task.look fun t => .ok (t.is_file (skill_version_path skill_id version))
  Task.return_error_if (¬snapshot_exists) (.SkillVersionNotFound skill_id version)
  let snapshot ← Task.look fun t =>
    read_skill_version ext t (skill_version_path skill_id version)
  update_skill ext service now skill_id snapshot.files

end SkillsService

end AgentSpace.Skills
