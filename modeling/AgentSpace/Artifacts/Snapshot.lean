/-
The snapshot script of the agent host: a workspace is copied over a saved one, without what the
platform has put there.

The directories of the script are loops over names; here each is the map of what becomes of a
name.
-/
import AgentSpace.Artifacts.Launch

set_option autoImplicit false

namespace AgentSpace.Artifacts

open Lib
open Telemetry (Str str)

/-! ## What is excluded -/

/-- `skills_staging`. -/
def skills_staging : PurePath := pure_path (str "/mnt/all-skills")

/-- `profile_marker`. -/
def profile_marker : List UInt8 :=
  "<!-- agentspace-owned-profile:".toList.map fun c => UInt8.ofNat c.toNat

/-- `validated_relative_path`; `none` is a `ValueError`. -/
def validated_relative_path (raw : Str) : Option (List Str) :=
  let parts := raw.splitOn slash
  if raw = [] ∨ 92 ∈ raw ∨ parts.any (fun part => part.isEmpty || part == str "." || part == str "..") then none
  else some parts

/-- `is_managed_artifact_path`. -/
def is_managed_artifact_path (relative : List Str) : Bool :=
  relative.length == 3 && (relative.take 2 == skills_dir
    || (relative.take 2 == profile_dir
      && (relative.drop 2).all fun name =>
        (str "agentspace-").isPrefixOf name && (str ".agent.md").isSuffixOf name))

/-- `is_owned_artifact`. -/
def is_owned_artifact (entry : Volume) (relative : List Str) : Bool :=
  if relative.take 2 = skills_dir then
    match entry with
    | .link target => target.root ≠ .relative && target.at_or_below skills_staging
    | _ => false
  else if relative.take 2 = profile_dir then
    match entry with
    | .file data => contains data profile_marker
    | _ => false
  else false

/-- `should_exclude`. -/
def should_exclude (exclude : List (List Str)) (entry : Volume) (relative : List Str) : Bool :=
  if is_managed_artifact_path relative then is_owned_artifact entry relative else exclude.contains relative

/-! ## The script -/

/-- The owned artifacts in a directory are removed. -/
def remove_owned_from (relative_dir : List Str) (root : Volume) : Volume :=
  match root.get relative_dir with
  | .dir child => root.put relative_dir (.dir fun name =>
    if is_managed_artifact_path (relative_dir ++ [name])
        && is_owned_artifact (child name) (relative_dir ++ [name]) then .nothing
    else child name)
  | _ => root

/-- `remove_owned_artifacts`. -/
def remove_owned_artifacts (root : Volume) : Volume :=
  remove_owned_from skills_dir (remove_owned_from profile_dir root)

/-- `reject_symlink_ancestors` raises a `ValueError`. -/
def has_symlink_ancestor (base : Volume) (relative : List Str) : Bool :=
  relative.dropLast.inits.tail.any fun path => (base.get path).is_link

/-- `copy_entry`, and what is at the target then. -/
def copy_entry (exclude : List (List Str)) : Volume → Volume → List Str → Volume
  | .nothing, target, _ => target
  | .link link, _, relative => if should_exclude exclude (.link link) relative then .nothing else .link link
  | .file data, _, relative => if should_exclude exclude (.file data) relative then .nothing else .file data
  | .dir child, target, relative =>
    if should_exclude exclude (.dir child) relative then .nothing
    else .dir fun name => copy_entry exclude (child name) (target.child name) (relative ++ [name])

/-- The loop over the excluded paths. -/
def remove_excluded (exclude : List (List Str)) (source : Volume) :
    List (List Str) → Volume → Option Volume
  | [], dest => some dest
  | path :: rest, dest =>
    if has_symlink_ancestor source path || has_symlink_ancestor dest path then none
    else
      let candidate := if (source.get path).exists then source.get path else dest.get path
      remove_excluded exclude source rest
        (if should_exclude exclude candidate path then dest.put path .nothing else dest)

/-- The loop over the workspace. -/
def copy_entries (exclude : List (List Str)) (source dest : Volume) : Volume :=
  .dir fun name => copy_entry exclude (source.child name) (dest.child name) [name]

/-- The script, of the excluded paths as they are given; `none` is a `ValueError`. -/
def snapshot (exclude_paths : List Str) (source dest : Volume) : Option Volume := do
  let exclude ← exclude_paths.mapM validated_relative_path
  let dest ← remove_excluded exclude source exclude (remove_owned_artifacts dest)
  return copy_entries exclude source dest

/-! ## The service -/

/-- `session_workspace_exclude_paths`, of the mounts of the agent, of a Copilot agent's skills, and of
the session if the agent has a prompt. -/
def session_workspace_exclude_paths (mounts skills : List Str) (session_id : Option Str) : List Str :=
  mounts ++ [str ".agents"]
    ++ (session_id.map fun session_id =>
      str ".github/agents/agentspace-" ++ session_id ++ str ".agent.md").toList
    ++ skills.map fun skill => str ".github/skills/" ++ skill

end AgentSpace.Artifacts
