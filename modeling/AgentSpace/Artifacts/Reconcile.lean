/-
What a launch of Copilot does to the entries of a workspace.

A link is in the staging directory by its target and by the directory it is in
(`Place.leads`). `run_reconcile_agent_profile` and `run_reconcile_skills` say how a part
ends and what is in the workspace then.
-/
import AgentSpace.Artifacts.Launch
import AgentSpace.Lib.Effect

set_option autoImplicit false

namespace AgentSpace.Artifacts

open Lib Lib.Files
open Telemetry (Str str)
open Telemetry.Otel (encode_utf8)
open Kernels (Python)
open Kernels.Copilot

variable {F : Type}

/-! ## The place -/

/-- A launch, and what is around the workspace. -/
structure Place where
  config : LaunchConfig
  /-- The directories in the staging directory, sorted, if there is one. -/
  staged : Option (List Str)
  /-- Where in the workspace the legacy directory of skills is, if it is in it. -/
  legacy : Option (List Str)
  /-- `_link_points_into`, of a link in a directory of the workspace to a target. -/
  leads : List Str → PurePath → Bool
  staged_nodup : (staged.getD []).Nodup

variable (place : Place)

/-- `env.get("KERNEL_SKILLS_STAGING_DIR", "")`. -/
def Place.staging_raw : Str := (place.config.env.env_get "KERNEL_SKILLS_STAGING_DIR").getD []

/-- An entry of a directory is a link into the staging directory. -/
def Place.points_into (parent : List Str) : Volume → Bool
  | .link target => place.staging_raw ≠ [] && place.leads parent target
  | _ => false

/-- The launch, as it meets the links of the workspace. -/
def Place.launch (workspace : Volume) : Launch where
  config := place.config
  staged := place.staged
  stale_points_into name := place.points_into skills_dir (workspace.get (skills_dir ++ [name]))
  link_points_into name := place.points_into skills_dir (workspace.get (skills_dir ++ [name]))

/-- The workspace without the links of the legacy directory into the staging directory. -/
def Place.without_legacy_links (workspace : Volume) : Volume :=
  match place.legacy with
  | none => workspace
  | some path => workspace.prune (fun _ entry => place.points_into path entry) path

/-- `_reconcile_skill_links`, with `_remove_legacy_skill_links`. -/
def reconcile_skills : Prepare (List (List Str)) :=
  if place.staging_raw = [] then pure []
  else do
    modify place.without_legacy_links
    let workspace ← get
    reconcile_skill_links (place.launch workspace)

/-- `prepare_workspace_artifacts`. -/
def prepare_at (py : Python F) : Prepare WorkspaceArtifacts := do
  let workspace ← get
  let agent_name ← reconcile_agent_profile py (place.launch workspace)
  let links ← reconcile_skills place
  pure ⟨agent_name, agent_name.toList.map profile_path ++ links⟩

/-- The workspace behind a launch, whether it raises or not. -/
def prepared (py : Python F) (workspace : Volume) : Volume := ((prepare_at place py).run workspace).2

/-! ## The profile -/

/-- Whether an entry is a profile with the marker; `none` is a `UnicodeDecodeError`. -/
def ownership (marker : Str) : Volume → Option Bool
  | .file data => (decode_utf8 data).map fun text => contains text marker
  | _ => some false

/-- `KERNEL_SYSTEM_PROMPT`. -/
def Place.prompt : Str := (place.config.env.env_get "KERNEL_SYSTEM_PROMPT").getD []

variable (path : List Str)

theorem run_profile_is_owned (marker : Str) (workspace : Volume) :
    (profile_is_owned path marker).run workspace
      = match ownership marker (workspace.get path) with
        | none => (.error .UnicodeError, workspace)
        | some owned => (.ok owned, workspace) := by
  have hget : (get : Prepare Volume).run workspace = (.ok workspace, workspace) := rfl
  rw [profile_is_owned, Effect.run_bind, hget]
  dsimp only
  cases workspace.get path with
  | file data =>
    simp only [ownership]
    cases decode_utf8 data with
    | none => rfl
    | some text => rfl
  | _ => rfl

theorem get_of_workspace_symlink {workspace : Volume} {dir : List Str}
    (h : workspace_symlink workspace dir = true)
    {name : Str} : workspace.get (dir ++ [name]) = .nothing := by
  obtain ⟨part, hpart, hlink⟩ := List.any_eq_true.1 h
  obtain ⟨rest, hrest⟩ := (List.mem_inits _ _).1 (List.mem_of_mem_tail hpart)
  have hpath : dir ++ [name] = part ++ (rest ++ [name]) := by rw [← hrest, List.append_assoc]
  have hdir : (workspace.get part).is_dir = false := by
    cases hget : workspace.get part with
    | link target => rfl
    | _ =>
      rw [hget] at hlink
      cases hlink
  rw [hpath, get_append]
  cases hrest' : rest ++ [name] with
  | nil => simp at hrest'
  | cons first more => exact get_cons_of_not_dir hdir first more

/-- Without a prompt: the profile of the session goes, if it is read. -/
theorem run_remove_stale_profile (agent_name : Str) (workspace : Volume) :
    (remove_stale_profile agent_name).run workspace
      = match ownership (ownership_marker agent_name) (workspace.get (profile_path agent_name)) with
        | none => (.error .UnicodeError, workspace)
        | some true => (.ok (), workspace.put (profile_path agent_name) .nothing)
        | some false => (.ok (), workspace) := by
  show (if workspace_symlink workspace profile_dir then pure ()
    else do
      let owned ← profile_is_owned (profile_path agent_name) (ownership_marker agent_name)
      if owned then unlink (profile_path agent_name) else pure () : Prepare Unit).run workspace = _
  split_ifs with hlink
  · rw [profile_path, get_of_workspace_symlink hlink]
    rfl
  · rw [Effect.run_bind, run_profile_is_owned]
    cases ownership (ownership_marker agent_name) (workspace.get (profile_path agent_name)) with
    | none => rfl
    | some owned =>
      cases owned with
      | true => rfl
      | false => rfl

/-- Who is not the platform's is refused. -/
theorem run_reject_user_profile (agent_name : Str) (workspace : Volume) :
    (reject_user_profile agent_name).run workspace
      = if (workspace.get (profile_path agent_name)).exists then
          match ownership (ownership_marker agent_name) (workspace.get (profile_path agent_name)) with
          | none => (.error .UnicodeError, workspace)
          | some true => (.ok (), workspace)
          | some false => (.error .CopilotLaunchError, workspace)
        else (.ok (), workspace) := by
  show (if (workspace.get (profile_path agent_name)).exists then do
      let owned ← profile_is_owned (profile_path agent_name) (ownership_marker agent_name)
      if owned then pure () else throw .CopilotLaunchError
    else pure () : Prepare Unit).run workspace = _
  split_ifs
  · rw [Effect.run_bind, run_profile_is_owned]
    cases ownership (ownership_marker agent_name) (workspace.get (profile_path agent_name)) with
    | none => rfl
    | some owned =>
      cases owned with
      | true => rfl
      | false => rfl
  · rfl

theorem run_reject_workspace_symlinks (dir : List Str) (workspace : Volume) :
    (reject_workspace_symlinks dir).run workspace
      = (if workspace_symlink workspace dir then .error .CopilotLaunchError else .ok (), workspace) := by
  show (if workspace_symlink workspace dir then throw .CopilotLaunchError else pure () :
    Prepare Unit).run workspace = _
  split_ifs
  · rfl
  · rfl

theorem run_mkdir (workspace : Volume) : (mkdir path).run workspace = match workspace.make_dirs path with
      | some made => (.ok (), made)
      | none => (.error .OSError, workspace) := by
  show (match workspace.make_dirs path with
    | some workspace => set workspace
    | none => throw .OSError : Prepare Unit).run workspace = _
  cases workspace.make_dirs path with
  | none => rfl
  | some made => rfl

theorem run_write_text (text : Str) (workspace : Volume) :
    (write_text path text).run workspace = match encode_utf8 text with
      | some data => (.ok (), workspace.put path (.file data))
      | none => (.error .UnicodeError, workspace.put path (.file [])) := by
  show (match encode_utf8 text with
    | some data => modify fun workspace => workspace.put path (.file data)
    | none => throw .UnicodeError : Prepare Unit).run (workspace.put path (.file [])) = _
  cases encode_utf8 text with
  | none => rfl
  | some data =>
    show (Except.ok (), (workspace.put path (.file [])).put path (.file data)) = _
    rw [put_put]

/-- The writing of a profile, with nothing in the way. -/
def write_profile (agent_name prompt : Str) : Prepare (Option Str) := do
  mkdir profile_dir
  write_text (profile_path agent_name) (profile_text agent_name prompt)
  pure (some agent_name)

theorem run_write_profile (agent_name prompt : Str) (workspace : Volume) :
    (write_profile agent_name prompt).run workspace = match workspace.make_dirs profile_dir with
      | none => (.error .OSError, workspace)
      | some made => match encode_utf8 (profile_text agent_name prompt) with
        | none => (.error .UnicodeError, made.put (profile_path agent_name) (.file []))
        | some data => (.ok (some agent_name), made.put (profile_path agent_name) (.file data)) := by
  rw [write_profile, Effect.run_bind, run_mkdir]
  cases workspace.make_dirs profile_dir with
  | none => rfl
  | some made =>
    dsimp only
    rw [Effect.run_bind, run_write_text]
    cases encode_utf8 (profile_text agent_name prompt) with
    | none => rfl
    | some data => rfl

/-! ### How it ends -/

variable {place} {py : Python F} {agent_name : Str}

theorem run_profile_unnamed (h : agent_profile_name py (artifact_identity place.config) = none)
    (workspace met : Volume) :
    (reconcile_agent_profile py (place.launch met)).run workspace = (.error .UnicodeError, workspace) := by
  unfold reconcile_agent_profile
  rw [show (place.launch met).config = place.config from rfl, h]
  rfl

/-- The two halves of `_reconcile_agent_profile`. -/
theorem run_profile_named (h : agent_profile_name py (artifact_identity place.config) = some agent_name)
    (workspace met : Volume) : (reconcile_agent_profile py (place.launch met)).run workspace
      = (if place.prompt = [] then do
          remove_stale_profile agent_name
          pure none
        else do
          reject_workspace_symlinks profile_dir
          reject_user_profile agent_name
          write_profile agent_name place.prompt : Prepare (Option Str)).run workspace := by
  unfold reconcile_agent_profile
  rw [show (place.launch met).config = place.config from rfl, h]
  rfl

theorem run_profile_no_prompt (h : agent_profile_name py (artifact_identity place.config) = some agent_name)
    (hprompt : place.prompt = []) (workspace met : Volume) :
    (reconcile_agent_profile py (place.launch met)).run workspace
      = match ownership (ownership_marker agent_name) (workspace.get (profile_path agent_name)) with
        | none => (.error .UnicodeError, workspace)
        | some true => (.ok none, workspace.put (profile_path agent_name) .nothing)
        | some false => (.ok none, workspace) := by
  rw [run_profile_named h, if_pos hprompt, Effect.run_bind, run_remove_stale_profile]
  cases ownership (ownership_marker agent_name) (workspace.get (profile_path agent_name)) with
  | none => rfl
  | some owned =>
    cases owned with
    | true => rfl
    | false => rfl

theorem run_profile_prompt (h : agent_profile_name py (artifact_identity place.config) = some agent_name)
    (hprompt : place.prompt ≠ []) (workspace met : Volume) :
    (reconcile_agent_profile py (place.launch met)).run workspace
      = if workspace_symlink workspace profile_dir then (.error .CopilotLaunchError, workspace)
        else if (workspace.get (profile_path agent_name)).exists then
          match ownership (ownership_marker agent_name) (workspace.get (profile_path agent_name)) with
          | none => (.error .UnicodeError, workspace)
          | some false => (.error .CopilotLaunchError, workspace)
          | some true => (write_profile agent_name place.prompt).run workspace
        else (write_profile agent_name place.prompt).run workspace := by
  rw [run_profile_named h, if_neg hprompt, Effect.run_bind, run_reject_workspace_symlinks]
  split_ifs
  · rfl
  · dsimp only
    rw [Effect.run_bind, run_reject_user_profile, if_pos ‹_›]
    cases ownership (ownership_marker agent_name) (workspace.get (profile_path agent_name)) with
    | none => rfl
    | some owned =>
      cases owned with
      | false => rfl
      | true => rfl
  · dsimp only
    rw [Effect.run_bind, run_reject_user_profile, if_neg ‹_›]

/-! ## The links -/

/-- A name that is accepted for a skill. -/
def valid_skill_name (name : Str) : Bool :=
  !decide (name = [] ∨ name = str "." ∨ name = str ".." ∨ slash ∈ name ∨ 92 ∈ name)

theorem run_validate_skill_name (name : Str) (workspace : Volume) : (validate_skill_name name).run workspace
      = (if valid_skill_name name then .ok () else .error .CopilotLaunchError, workspace) := by
  unfold validate_skill_name valid_skill_name
  by_cases hbad : name = [] ∨ name = str "." ∨ name = str ".." ∨ slash ∈ name ∨ 92 ∈ name
  · rw [if_pos hbad, decide_eq_true hbad]
    rfl
  · rw [if_neg hbad, decide_eq_false hbad]
    rfl

variable (place) in
/-- The names of the enabled skills, if only some are. -/
def Place.enabled : Option (List Str) :=
  (place.config.env.env_get "KERNEL_ENABLED_SKILLS").map fun raw =>
    (raw.splitOn 44).filter fun name => !name.isEmpty

variable (place) in
/-- All of them are names. -/
def Place.enabled_valid : Bool := place.enabled.all fun names => names.all valid_skill_name

theorem run_validate_skill_names (names : List Str) (workspace : Volume) :
    (names.forM validate_skill_name).run workspace
      = (if names.all valid_skill_name then .ok () else .error .CopilotLaunchError, workspace) := by
  induction names with
  | nil => rfl
  | cons name names ih =>
    show (validate_skill_name name >>= fun _ => names.forM validate_skill_name :
      Prepare PUnit).run workspace = _
    rw [Effect.run_bind, run_validate_skill_name]
    cases hname : valid_skill_name name with
    | true =>
      rw [if_pos rfl]
      dsimp only
      rw [ih, List.all_cons, hname, Bool.true_and]
    | false =>
      rw [if_neg Bool.false_ne_true, List.all_cons, hname, Bool.false_and, if_neg Bool.false_ne_true]

theorem run_enabled_skills (met workspace : Volume) : (enabled_skills (place.launch met)).run workspace
      = (if place.enabled_valid then .ok place.enabled else .error .CopilotLaunchError, workspace) := by
  unfold enabled_skills Place.enabled_valid Place.enabled
  rw [show (place.launch met).config = place.config from rfl]
  cases place.config.env.env_get "KERNEL_ENABLED_SKILLS" with
  | none => rfl
  | some raw =>
    dsimp only [Option.map_some, Option.all_some]
    rw [Effect.run_bind, run_validate_skill_names]
    split_ifs
    · rfl
    · rfl

variable (place) in
/-- The enabled directories of the staging directory. -/
def Place.selected : List Str := (place.staged.getD []).filter (is_enabled place.enabled)

variable (place) in
/-- A stale link goes. -/
def Place.is_stale (name : Str) (entry : Volume) : Bool :=
  place.points_into skills_dir entry && !is_enabled place.enabled name

variable (workspace : Volume)

theorem run_look_through_links : (look_through_links (place.launch workspace) place.enabled).run workspace
      = if (workspace.get skills_dir).leaf.isSome then (.error .CopilotLaunchError, workspace)
        else (.ok (), workspace.prune place.is_stale skills_dir) := by
  show (if (workspace.get skills_dir).exists && !(workspace.get skills_dir).is_dir then throw .CopilotLaunchError
    else if (workspace.get skills_dir).is_dir then
      modify (remove_stale_skill_links (place.launch workspace) place.enabled)
    else pure () : Prepare Unit).run workspace = _
  cases hget : workspace.get skills_dir with
  | nothing =>
    rw [Files.prune, hget]
    rfl
  | file data => rfl
  | link target => rfl
  | dir child =>
    show (Except.ok (), remove_stale_skill_links (place.launch workspace) place.enabled workspace)
      = (Except.ok (), _)
    have hdir : (Files.dir child : Volume).is_dir = true := rfl
    rw [Files.prune, hget, if_pos hdir, remove_stale_skill_links, hget]
    refine congrArg (Prod.mk _) (congrArg (workspace.put skills_dir)
      (congrArg Files.dir (funext fun name => ?_)))
    have hstale : (place.launch workspace).stale_points_into name
      = place.points_into skills_dir (child name) := by
      show place.points_into skills_dir (workspace.get (skills_dir ++ [name])) = _
      rw [get_append, hget]
      rfl
    rw [hstale, child_dir, Place.is_stale]
    cases child name with
    | link target => rfl
    | _ => rfl

/-! ### The loop -/

variable (place) in
/-- The staging directory, as the links lead to it. -/
def Place.staging : PurePath := pure_path place.staging_raw

variable (place) in
/-- An entry takes the name of a skill from it. -/
def Place.takes (entry : Volume) : Bool := entry.exists && !place.points_into skills_dir entry

variable (place) in
/-- What is under the name of a skill when it has had its turn. -/
def Place.linked (name : Str) (entry : Volume) : Volume :=
  if place.takes entry then entry else .link (place.staging.join name)

theorem is_link_of_points_into {parent : List Str} {entry : Volume}
    (h : place.points_into parent entry = true) : entry.is_link = true := by
  cases entry with
  | link target => rfl
  | _ => cases h

theorem run_link_skill {launch : Launch} {name : Str} {child : Str → Volume} {workspace : Volume}
    (hget : workspace.get skills_dir = .dir child) (hpoints : (child name).is_link = true →
      launch.link_points_into name = place.points_into skills_dir (child name)) :
    (link_skill launch place.staging name).run workspace
      = if valid_skill_name name then (.ok (!place.takes (child name)),
            workspace.put skills_dir (.dir (Function.update child name (place.linked name (child name)))))
        else (.error .CopilotLaunchError, workspace) := by
  have hentry : workspace.get (skills_dir ++ [name]) = child name := by
    rw [get_append, hget]
    rfl
  have hput : ∀ entry, workspace.put (skills_dir ++ [name]) entry
      = workspace.put skills_dir (.dir (Function.update child name entry)) := by
    intro entry
    rw [← put_dir_put, ← hget, put_get_self]
  have hstay : workspace = workspace.put skills_dir (.dir (Function.update child name (child name))) := by
    rw [Function.update_eq_self, ← hget, put_get_self]
  unfold link_skill
  rw [Effect.run_bind, run_validate_skill_name]
  cases hvalid : valid_skill_name name with
  | false => rfl
  | true =>
    show (if (workspace.get (skills_dir ++ [name])).is_link && launch.link_points_into name then do
        unlink (skills_dir ++ [name])
        symlink_to (skills_dir ++ [name]) (place.staging.join name)
        pure true
      else if (workspace.get (skills_dir ++ [name])).exists then pure false
      else do
        symlink_to (skills_dir ++ [name]) (place.staging.join name)
        pure true : Prepare Bool).run workspace = _
    rw [hentry, if_pos rfl]
    unfold Place.linked Place.takes
    cases hpoint : place.points_into skills_dir (child name) with
    | true =>
      have hlink := is_link_of_points_into hpoint
      rw [hpoints hlink, hlink, hpoint, Bool.not_true, Bool.and_false, if_neg Bool.false_ne_true]
      show (Except.ok true, (workspace.put (skills_dir ++ [name]) .nothing).put (skills_dir ++ [name])
        (.link (place.staging.join name))) = _
      rw [put_put, hput]
      rfl
    | false =>
      have hno : ((child name).is_link && launch.link_points_into name) = false := by
        cases hlink : (child name).is_link with
        | false => rfl
        | true => rw [hpoints hlink, hpoint, Bool.and_false]
      rw [hno, if_neg Bool.false_ne_true, Bool.not_false, Bool.and_true]
      cases hexists : (child name).exists with
      | true =>
        rw [if_pos rfl, if_pos rfl, ← hstay]
        rfl
      | false =>
        rw [if_neg Bool.false_ne_true, if_neg Bool.false_ne_true, ← hput]
        rfl

/-- The loop: the names before the first that is refused have their turn. -/
theorem run_link_skills {launch : Launch} {names : List Str} (hnodup : names.Nodup) :
    ∀ {workspace : Volume} {child : Str → Volume}, workspace.get skills_dir = .dir child →
      (∀ name ∈ names, (child name).is_link = true →
        launch.link_points_into name = place.points_into skills_dir (child name)) →
      (link_skills launch place.staging names).run workspace
        = (if names.all valid_skill_name then
              .ok ((names.filter fun name => !place.takes (child name)).map fun name => skills_dir ++ [name])
            else .error .CopilotLaunchError,
          workspace.put skills_dir (.dir fun name =>
            if name ∈ names.takeWhile valid_skill_name then place.linked name (child name)
            else child name)) := by
  induction names with
  | nil =>
    intro workspace child hget _
    have hsame : workspace.put skills_dir (.dir child) = workspace := by rw [← hget, put_get_self]
    show (Except.ok [], workspace) = _
    simp [hsame]
  | cons name names ih =>
    intro workspace child hget hpoints
    obtain ⟨hfresh, hrest⟩ := List.nodup_cons.1 hnodup
    rw [link_skills, Effect.run_bind, run_link_skill hget (hpoints name List.mem_cons_self)]
    cases hvalid : valid_skill_name name with
    | false =>
      have hsame : workspace.put skills_dir (.dir child) = workspace := by rw [← hget, put_get_self]
      rw [if_neg Bool.false_ne_true]
      simp [hvalid, hsame]
    | true =>
      rw [if_pos rfl]
      dsimp only
      have hother : ∀ n ∈ names, Function.update child name (place.linked name (child name)) n = child n :=
        fun n hn => Function.update_of_ne (fun hsame : n = name => hfresh (hsame ▸ hn)) _ _
      have hdir : (workspace.get skills_dir).exists = true := by
        rw [hget]
        rfl
      rw [Effect.run_bind, ih hrest (get_put_of_exists hdir _) fun n hn hlink => ?_, put_put]
      · have hfilter : (names.filter fun n => !place.takes (Function.update child name
            (place.linked name (child name)) n)) = names.filter fun n => !place.takes (child n) :=
          List.filter_congr fun n hn => by rw [hother n hn]
        have hchild : (fun n => if n ∈ names.takeWhile valid_skill_name then
              place.linked n (Function.update child name (place.linked name (child name)) n)
            else Function.update child name (place.linked name (child name)) n)
            = fun n => if n ∈ (name :: names).takeWhile valid_skill_name then place.linked n (child n)
              else child n := by
          funext n
          rw [List.takeWhile_cons_of_pos hvalid]
          by_cases hn : n = name
          · subst hn
            have hnot : n ∉ names.takeWhile valid_skill_name :=
              fun hmem => hfresh ((List.takeWhile_prefix _).subset hmem)
            rw [if_neg hnot, Function.update_self, if_pos List.mem_cons_self]
          · rw [Function.update_of_ne hn]
            simp [hn]
        rw [hfilter, hchild, List.all_cons, hvalid, Bool.true_and]
        cases names.all valid_skill_name with
        | false => rfl
        | true =>
          cases htakes : place.takes (child name) with
          | true | false => simp [htakes]; rfl
      · rw [hother n hn] at hlink ⊢
        exact hpoints n (List.mem_cons_of_mem _ hn) hlink

/-! ### How it ends -/

variable (place) in
/-- What is left under a name when the stale links are gone. -/
def Place.left (workspace : Volume) (name : Str) : Volume :=
  if place.is_stale name (workspace.get (skills_dir ++ [name])) then .nothing
  else workspace.get (skills_dir ++ [name])

variable (place) in
/-- What is under a name in the end. -/
def Place.settled (workspace : Volume) (name : Str) : Volume :=
  if name ∈ place.selected.takeWhile valid_skill_name then place.linked name (place.left workspace name)
  else place.left workspace name

variable (place) in
/-- The skills that are linked. -/
def Place.owned (workspace : Volume) : List Str :=
  place.selected.filter fun name => !place.takes (place.left workspace name)

theorem is_stale_nothing (name : Str) : place.is_stale name .nothing = false := rfl

theorem get_prune_stale (name : Str) :
    (workspace.prune place.is_stale skills_dir).get (skills_dir ++ [name]) = place.left workspace name :=
  get_prune_entry is_stale_nothing skills_dir workspace name

theorem not_prefix_of_concat (name : Str) : ¬path ++ [name] <+: path := by
  intro h
  have hlength := h.length_le
  rw [List.length_append, List.length_singleton] at hlength
  omega

theorem eq_dir_of_is_dir {t : Volume} (h : t.is_dir = true) : t = .dir t.child := by
  cases t with
  | dir child => rfl
  | _ => cases h

theorem nodup_selected : place.selected.Nodup := place.staged_nodup.filter _

theorem run_link_selected : (link_selected (place.launch workspace) place.staging place.selected).run
        (workspace.prune place.is_stale skills_dir)
      = if place.selected = [] then (.ok [], workspace.prune place.is_stale skills_dir)
        else match (workspace.prune place.is_stale skills_dir).make_dirs skills_dir with
          | none => (.error .OSError, workspace.prune place.is_stale skills_dir)
          | some made =>
            (if place.selected.all valid_skill_name then
                .ok ((place.owned workspace).map fun name => skills_dir ++ [name])
              else .error .CopilotLaunchError,
              made.put skills_dir (.dir (place.settled workspace))) := by
  unfold link_selected
  by_cases hnone : place.selected = []
  · rw [if_pos hnone, if_pos hnone]
    rfl
  · rw [if_neg hnone, if_neg hnone, Effect.run_bind, run_mkdir]
    cases hmade : (workspace.prune place.is_stale skills_dir).make_dirs skills_dir with
    | none => rfl
    | some made =>
      dsimp only
      have hchild : (made.get skills_dir).child = place.left workspace := by
        funext name
        have hget := get_make_dirs_apart hmade (not_prefix_of_concat skills_dir name)
        rw [get_prune_stale, get_append] at hget
        exact hget
      have hget : made.get skills_dir = .dir (place.left workspace) := by
        rw [← hchild]
        exact eq_dir_of_is_dir (is_dir_make_dirs hmade)
      rw [run_link_skills nodup_selected hget fun name _ hlink => ?_]
      · rfl
      · show place.points_into skills_dir (workspace.get (skills_dir ++ [name])) = _
        unfold Place.left at hlink ⊢
        split_ifs with hstale
        · rw [if_pos hstale] at hlink
          cases hlink
        · rfl

variable (place) in
theorem run_reconcile_skills (hraw : place.staging_raw ≠ []) (workspace : Volume) :
    (reconcile_skills place).run workspace
      = if workspace_symlink (place.without_legacy_links workspace) skills_dir = true
            ∨ place.enabled_valid = false
            ∨ ((place.without_legacy_links workspace).get skills_dir).leaf.isSome = true then
          (.error .CopilotLaunchError, place.without_legacy_links workspace)
        else (link_selected (place.launch (place.without_legacy_links workspace)) place.staging
          place.selected).run ((place.without_legacy_links workspace).prune place.is_stale skills_dir) := by
  unfold reconcile_skills
  rw [if_neg hraw]
  generalize hu : place.without_legacy_links workspace = u
  show (reconcile_skill_links (place.launch (place.without_legacy_links workspace))).run
    (place.without_legacy_links workspace) = _
  rw [hu]
  unfold reconcile_skill_links
  rw [if_neg (show AgentSpace.Artifacts.staging_raw (place.launch u) ≠ [] from hraw), Effect.run_bind,
    run_reject_workspace_symlinks]
  cases hlink : workspace_symlink u skills_dir with
  | true => rfl
  | false =>
    rw [if_neg Bool.false_ne_true]
    dsimp only
    rw [Effect.run_bind, run_enabled_skills]
    cases henabled : place.enabled_valid with
    | false => simp
    | true =>
      rw [if_pos rfl]
      dsimp only
      rw [Effect.run_bind, run_look_through_links]
      cases hleaf : (u.get skills_dir).leaf.isSome with
      | true => simp
      | false =>
        simp only [Bool.false_eq_true, Bool.true_eq_false, if_false, or_self]
        rfl

theorem run_reconcile_skills_nothing (hraw : place.staging_raw = []) (workspace : Volume) :
    (reconcile_skills place).run workspace = (.ok [], workspace) := by
  unfold reconcile_skills
  rw [if_pos hraw]
  rfl

end AgentSpace.Artifacts
