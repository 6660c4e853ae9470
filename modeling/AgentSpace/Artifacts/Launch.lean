/-
What a launch of Copilot puts into the workspace: the profile of the session and the links to
its skills.

`prepare_workspace_artifacts` may raise in between. Where the links lead to is decided outside
of the workspace: `_link_points_into` is part of what a launch meets.
-/
import AgentSpace.Kernels.Commands
import AgentSpace.Lib.Files

set_option autoImplicit false

namespace AgentSpace.Artifacts

open Lib
open Telemetry (Str str)
open Telemetry.Otel (encode_utf8)
open Kernels (Python)
open Kernels.Copilot

variable {F : Type}

/-! ## Paths and files -/

/-- The beginning of a path. -/
inductive Root where
  | relative
  | single
  | double
  deriving DecidableEq

/-- `PurePosixPath`. -/
structure PurePath where
  root : Root
  parts : List Str
  deriving DecidableEq

/-- `/`. -/
def slash : Fin 0x110000 := 47

/-- `PurePosixPath(raw)`. -/
def pure_path (raw : Str) : PurePath where
  root := match (raw.takeWhile fun c => c == slash).length with
    | 0 => .relative
    | 2 => .double
    | _ => .single
  parts := (raw.splitOn slash).filter fun part => !part.isEmpty && part != str "."

/-- `path / name`. -/
def PurePath.join (path : PurePath) (name : Str) : PurePath := { path with parts := path.parts ++ [name] }

/-- `path == other or other in path.parents`. -/
def PurePath.at_or_below (path other : PurePath) : Bool :=
  path.root = other.root && other.parts.isPrefixOf path.parts

/-- The contents of a volume; the target of a link is what `readlink` returns. -/
abbrev Volume := Files Str (List UInt8) PurePath

/-- `PROFILE_DIR`, and `SKILLS_DIR`. -/
def profile_dir : List Str := [str ".github", str "agents"]

def skills_dir : List Str := [str ".github", str "skills"]

/-- `data.decode("utf-8")`; `none` is a `UnicodeDecodeError`. -/
def decode_utf8 (data : List UInt8) : Option Str := (String.fromUTF8? ⟨data.toArray⟩).map str

/-- `needle in text`. -/
def contains {α : Type} [DecidableEq α] (text needle : List α) : Bool := decide (needle <:+: text)

/-! ## A launch -/

/-- A launch, and what it meets outside of the workspace. -/
structure Launch where
  config : LaunchConfig
  /-- The directories in the staging directory, sorted, if there is one. -/
  staged : Option (List Str)
  /-- `_link_points_into`, of the link of a name when stale links are removed. -/
  stale_points_into : Str → Bool
  /-- `_link_points_into`, of the link of a name when links are made. -/
  link_points_into : Str → Bool

/-- What is raised. -/
inductive Raised where
  | CopilotLaunchError
  | UnicodeError
  | OSError
  deriving DecidableEq

/-- A part of a launch. -/
abbrev Prepare := ExceptT Raised (StateM Volume)

/-- `_workspace_symlink`, as a condition. -/
def workspace_symlink (workspace : Volume) (relative_dir : List Str) : Bool :=
  relative_dir.inits.tail.any fun path => (workspace.get path).is_link

/-- `_reject_workspace_symlinks`. -/
def reject_workspace_symlinks (relative_dir : List Str) : Prepare Unit := do
  let workspace ← get
  if workspace_symlink workspace relative_dir then throw .CopilotLaunchError else pure ()

/-- `path.unlink()`. -/
def unlink (path : List Str) : Prepare Unit := modify fun workspace => workspace.put path .nothing

/-- `path.mkdir(parents=True, exist_ok=True)`. -/
def mkdir (path : List Str) : Prepare Unit := do
  let workspace ← get
  match workspace.make_dirs path with
  | some workspace => set workspace
  | none => throw .OSError

/-- `path.write_text(text, encoding="utf-8")`: the file is opened before the text is encoded. -/
def write_text (path : List Str) (text : Str) : Prepare Unit := do
  modify fun workspace => workspace.put path (.file [])
  match encode_utf8 text with
  | some data => modify fun workspace => workspace.put path (.file data)
  | none => throw .UnicodeError

/-- What may be missing. -/
def or_raise {α : Type} (raised : Raised) : Option α → Prepare α
  | some a => pure a
  | none => throw raised

/-! ## The profile -/

/-- `ownership_marker`. -/
def ownership_marker (agent_name : Str) : Str :=
  str "<!-- agentspace-owned-profile:" ++ agent_name ++ str " -->"

/-- What is written into a profile. -/
def profile_text (agent_name prompt : Str) : Str :=
  str "---\nname: \"" ++ agent_name ++ str "\"\ndescription: \"AgentSpace session profile\"\n---\n"
    ++ ownership_marker agent_name ++ str "\n" ++ prompt ++ str "\n"

/-- Where the profile is. -/
def profile_path (agent_name : Str) : List Str := profile_dir ++ [agent_name ++ str ".agent.md"]

/-- `_profile_is_owned`. -/
def profile_is_owned (path : List Str) (marker : Str) : Prepare Bool := do
  let workspace ← get
  match workspace.get path with
  | .file data => do
    let text ← or_raise .UnicodeError (decode_utf8 data)
    pure (contains text marker)
  | _ => pure false

/-- `config.env.get("KERNEL_SYSTEM_PROMPT", "")`. -/
def system_prompt (launch : Launch) : Str := (launch.config.env.env_get "KERNEL_SYSTEM_PROMPT").getD []

/-- Without a prompt, the profile of the session is removed. -/
def remove_stale_profile (agent_name : Str) : Prepare Unit := do
  let workspace ← get
  if workspace_symlink workspace profile_dir then pure ()
  else do
    let owned ← profile_is_owned (profile_path agent_name) (ownership_marker agent_name)
    if owned then unlink (profile_path agent_name) else pure ()

/-- What is at the path of the profile must be one. -/
def reject_user_profile (agent_name : Str) : Prepare Unit := do
  let workspace ← get
  if (workspace.get (profile_path agent_name)).exists then do
    let owned ← profile_is_owned (profile_path agent_name) (ownership_marker agent_name)
    if owned then pure () else throw .CopilotLaunchError
  else pure ()

/-- `_reconcile_agent_profile`. -/
def reconcile_agent_profile (py : Python F) (launch : Launch) : Prepare (Option Str) := do
  let agent_name ← or_raise .UnicodeError (agent_profile_name py (artifact_identity launch.config))
  if system_prompt launch = [] then do
    remove_stale_profile agent_name
    pure none
  else do
    reject_workspace_symlinks profile_dir
    reject_user_profile agent_name
    mkdir profile_dir
    write_text (profile_path agent_name) (profile_text agent_name (system_prompt launch))
    pure (some agent_name)

/-! ## The links -/

/-- `_validate_skill_name`. -/
def validate_skill_name (name : Str) : Prepare Unit :=
  if name = [] ∨ name = str "." ∨ name = str ".." ∨ slash ∈ name ∨ 92 ∈ name then throw .CopilotLaunchError
  else pure ()

/-- `_enabled_skills`. -/
def enabled_skills (launch : Launch) : Prepare (Option (List Str)) := do
  match launch.config.env.env_get "KERNEL_ENABLED_SKILLS" with
  | none => pure none
  | some raw => do
    let enabled := (raw.splitOn 44).filter fun name => !name.isEmpty
    enabled.forM validate_skill_name
    pure (some enabled)

/-- A name is enabled. -/
def is_enabled (enabled : Option (List Str)) (name : Str) : Bool := enabled.all fun names => names.contains name

/-- `_remove_stale_skill_links`. -/
def remove_stale_skill_links (launch : Launch) (enabled : Option (List Str)) (workspace : Volume) : Volume :=
  let target := workspace.get skills_dir
  workspace.put skills_dir (.dir fun name =>
    if (target.child name).is_link && launch.stale_points_into name && !is_enabled enabled name then .nothing
    else target.child name)

/-- The directory of the links is looked through, if it is one. -/
def look_through_links (launch : Launch) (enabled : Option (List Str)) : Prepare Unit := do
  let workspace ← get
  let target := workspace.get skills_dir
  if target.exists && !target.is_dir then throw .CopilotLaunchError
  else if target.is_dir then modify (remove_stale_skill_links launch enabled)
  else pure ()

/-- `link.symlink_to(entry)`. -/
def symlink_to (link : List Str) (target : PurePath) : Prepare Unit :=
  modify fun workspace => workspace.put link (.link target)

/-- The round of `_reconcile_skill_links` for an entry of the staging directory: whether it is
linked. -/
def link_skill (launch : Launch) (staging : PurePath) (name : Str) : Prepare Bool := do
  validate_skill_name name
  let workspace ← get
  let existing := workspace.get (skills_dir ++ [name])
  if existing.is_link && launch.link_points_into name then do
    unlink (skills_dir ++ [name])
    symlink_to (skills_dir ++ [name]) (staging.join name)
    pure true
  else if existing.exists then pure false
  else do
    symlink_to (skills_dir ++ [name]) (staging.join name)
    pure true

/-- The loop of `_reconcile_skill_links`. -/
def link_skills (launch : Launch) (staging : PurePath) : List Str → Prepare (List (List Str))
  | [] => pure []
  | name :: rest => do
    let linked ← link_skill launch staging name
    let owned_paths ← link_skills launch staging rest
    pure (if linked then (skills_dir ++ [name]) :: owned_paths else owned_paths)

/-- `env.get("KERNEL_SKILLS_STAGING_DIR", "")`. -/
def staging_raw (launch : Launch) : Str := (launch.config.env.env_get "KERNEL_SKILLS_STAGING_DIR").getD []

/-- `_reconcile_skill_links`, behind the removal of stale links. -/
def link_selected (launch : Launch) (staging : PurePath) (selected : List Str) : Prepare (List (List Str)) :=
  if selected = [] then pure []
  else do
    mkdir skills_dir
    link_skills launch staging selected

/-- `_reconcile_skill_links`. -/
def reconcile_skill_links (launch : Launch) : Prepare (List (List Str)) :=
  if staging_raw launch = [] then pure []
  else do
    reject_workspace_symlinks skills_dir
    let enabled ← enabled_skills launch
    look_through_links launch enabled
    link_selected launch (pure_path (staging_raw launch)) ((launch.staged.getD []).filter (is_enabled enabled))

/-! ## Both -/

/-- `CopilotWorkspaceArtifacts`. -/
structure WorkspaceArtifacts where
  agent_name : Option Str
  owned_relative_paths : List (List Str)

/-- `prepare_workspace_artifacts`. -/
def prepare_workspace_artifacts (py : Python F) (launch : Launch) : Prepare WorkspaceArtifacts := do
  let agent_name ← reconcile_agent_profile py launch
  let links ← reconcile_skill_links launch
  pure ⟨agent_name, agent_name.toList.map profile_path ++ links⟩

/-- The workspace behind a launch, whether it raises or not. -/
def launched (py : Python F) (workspace : Volume) (launch : Launch) : Volume :=
  ((prepare_workspace_artifacts py launch).run workspace).2

end AgentSpace.Artifacts
