/-
The docker runtime of the agent host: `docker_runtime.rs`.

Names of containers and volumes are made of the first twelve bytes of an id; whose they
are is said by their labels. The operations act later by the name of what they have found.
-/
import AgentSpace.Docker.State

set_option autoImplicit false

namespace AgentSpace.Docker

open Lib

/-! ## Requests and handles -/

/-- `HarnessName`. -/
inductive HarnessName where
  | Acp
  | ClaudeCode
  | Codex
  | CopilotCli
  | Echo
  | Opencode
  deriving DecidableEq

/-- `HarnessName::as_str`. -/
def HarnessName.as_str : HarnessName → String
  | Acp => "acp"
  | ClaudeCode => "claude-code"
  | Codex => "codex"
  | CopilotCli => "copilot-cli"
  | Echo => "echo"
  | Opencode => "opencode"

/-- `InteractionMode`. -/
inductive InteractionMode where
  | Chat
  | Cli
  deriving DecidableEq

/-- `InteractionMode::as_str`. -/
def InteractionMode.as_str : InteractionMode → String
  | Chat => "chat"
  | Cli => "cli"

/-- `WorkspaceMount`, with `effective_volume_name` and `mount_path`. -/
structure WorkspaceMount where
  effective_volume_name : Text
  mount_path : Text

/-- `SkillVolumeResource`, with the name of its volume. -/
structure SkillVolumeResource where
  skill_id : Text
  resource_id : Text
  volume_name : Text
  mount_path : Text

/-- `RuntimeCreateSession`. -/
structure RuntimeCreateSession where
  session_id : Text
  telemetry_volume_identity : Option Text
  harness : HarnessName
  interaction_mode : InteractionMode
  env : Labels
  skill_volumes : List SkillVolumeResource
  workspace_mounts : List WorkspaceMount

/-- `DockerKernelSession`. -/
structure DockerKernelSession where
  session_id : Text
  container_name : Text
  session_workspace_volume_name : Text
  session_telemetry_volume_name : Option Text

/-- `DockerRuntimeConfig`, as far as it is used below. -/
structure DockerRuntimeConfig where
  copilot_volume : Text
  skills_volume : Text
  base_url_template : Text → Text
  vscode_container_port : ℕ
  free_port_container_port : ℕ

def SESSION_WORKSPACE_MOUNT_PATH : Text := "/workspace".toList

def SESSION_TELEMETRY_MOUNT_PATH : Text := "/var/lib/agentspace/telemetry".toList

def RUNTIME_RECOVERY_ENV : Text := "AGENTSPACE_RUNTIME_RECOVERY".toList

/-- `recovery_expected`. -/
def recovery_expected (request : RuntimeCreateSession) : Bool :=
  request.env[RUNTIME_RECOVERY_ENV]? = some "1".toList

/-! ## Names and labels -/

/-- `value.get(..count)`: so many bytes, if a character ends there. -/
def get_to : ℕ → Text → Option Text
  | 0, _ => some []
  | _ + 1, [] => none
  | count, c :: value =>
    if c.utf8Size ≤ count then (get_to (count - c.utf8Size) value).map (c :: ·) else none

/-- `first_n`. -/
def first_n (value : Text) (count : ℕ) : Text := (get_to count value).getD value

/-- `kernel_container_name`. -/
def kernel_container_name (session_id : Text) : Text :=
  "agentspace-kernel-".toList ++ first_n session_id 12

/-- `session_workspace_volume_name`. -/
def session_workspace_volume_name (session_id : Text) : Text :=
  "agentspace-session-workspace-".toList ++ first_n session_id 12

/-- `session_telemetry_volume_name`. -/
def session_telemetry_volume_name (volume_identity : Text) : Text :=
  "agentspace-session-telemetry-".toList ++ first_n volume_identity 12

/-- `kernel_labels`. -/
def kernel_labels (request : RuntimeCreateSession) : Labels :=
  btree_map [(LABEL_ROLE, "kernel".toList), (LABEL_MANAGED, "true".toList),
    (LABEL_SESSION_ID, request.session_id),
    (LABEL_INTERACTION_MODE, request.interaction_mode.as_str.toList),
    ("agentspace.harness".toList, request.harness.as_str.toList)]

/-- `session_workspace_labels`. -/
def session_workspace_labels (request : RuntimeCreateSession) : Labels :=
  btree_map [(LABEL_ROLE, "session-workspace".toList), (LABEL_MANAGED, "true".toList),
    (LABEL_SESSION_ID, request.session_id),
    (LABEL_INTERACTION_MODE, request.interaction_mode.as_str.toList)]

/-- `session_telemetry_labels`. -/
def session_telemetry_labels (request : RuntimeCreateSession) : Labels :=
  btree_map [(LABEL_ROLE, "session-telemetry".toList), (LABEL_MANAGED, "true".toList),
    (LABEL_SESSION_ID, request.session_id)]

/-! ## Operations -/

/-- A program over the calls, which may fail. -/
abbrev Operation := ExceptT AgentHostError (Prog Call Call.Answer)

namespace Operation

/-- A call; if it fails, so does the operation. -/
def call (c : Call) : Operation c.Value := ExceptT.mk (Prog.lift c)

/-- `return Err(error)`, on a condition. -/
def fail_if (condition : Prop) [Decidable condition] (error : AgentHostError) : Operation Unit :=
  if condition then throw error else pure ()

end Operation

open Operation

/-- `validate_session_resource_labels`. -/
def validate_session_resource_labels (resource_kind : String) (resource_name : Text)
    (labels : Labels) (expected_role : String) (interaction_mode : InteractionMode) : Operation Unit :=
  fail_if (¬is_managed_role labels expected_role
      ∨ labels[LABEL_INTERACTION_MODE]? ≠ some interaction_mode.as_str.toList)
    (.incompatible_labels resource_kind resource_name)

/-- `validate_telemetry_volume_labels`. -/
def validate_telemetry_volume_labels (resource_kind : String) (resource_name : Text)
    (labels : Labels) : Operation Unit :=
  fail_if (¬is_managed_role labels "session-telemetry" ∨ labels[LABEL_SESSION_ID]? = none
      ∨ labels[LABEL_INTERACTION_MODE]? ≠ none ∨ labels[LABEL_RESOURCE_ID]? ≠ none ∨ labels.size ≠ 3)
    (.incompatible_labels resource_kind resource_name)

/-- The backend's `ensure_volume`. -/
def ensure_volume (volume_name : Text) (labels : Labels) : Operation Unit := do
  match ← call (.inspect_volume volume_name) with
  | some _ => pure ()
  | none => call (.create_volume volume_name labels)

/-- The backend's `run_container`, for a container that is not waited for. -/
def run_container (spec : ContainerRunSpec) : Operation Unit := do
  call (.create_container spec)
  call (.start_container spec.name)

/-- What is under the name is not another's. -/
def check_volume_owner (name session_id : Text) : Operation Unit := do
  match ← call (.inspect_volume name) with
  | some volume =>
    fail_if (volume.labels[LABEL_SESSION_ID]? ≠ some session_id)
      (.identity_collision "volume name" name session_id)
  | none => pure ()

/-- The volumes of a role and a session. -/
def matching_volumes (role : String) (session_id : Text) (volumes : List DockerVolumeResource) :
    List DockerVolumeResource :=
  volumes.filter fun volume =>
    is_managed_role volume.labels role && volume.labels[LABEL_SESSION_ID]? = some session_id

/-- `ensure_session_workspace_volume`. -/
def ensure_session_workspace_volume (request : RuntimeCreateSession) : Operation Text := do
  let expected_name := session_workspace_volume_name request.session_id
  check_volume_owner expected_name request.session_id
  let listed ← call .list_volumes
  match matching_volumes "session-workspace" request.session_id listed with
  | _ :: _ :: _ => throw (.multiple_resources request.session_id)
  | [volume] => do
    validate_session_resource_labels "Docker volume" volume.name volume.labels "session-workspace"
      request.interaction_mode
    pure volume.name
  | [] => do
    fail_if (recovery_expected request) (.missing_volume request.session_id)
    let resource_id ← call .now_v7
    ensure_volume expected_name
      ((session_workspace_labels request).insert LABEL_RESOURCE_ID resource_id)
    match ← call (.inspect_volume expected_name) with
    | none => throw (.disappeared expected_name)
    | some created => do
      fail_if (created.labels[LABEL_SESSION_ID]? ≠ some request.session_id)
        (.identity_collision "volume name" expected_name request.session_id)
      validate_session_resource_labels "Docker volume" created.name created.labels
        "session-workspace" request.interaction_mode
      pure expected_name

/-- `ensure_session_telemetry_volume`, for a session that has such a volume. -/
def ensure_telemetry_volume (request : RuntimeCreateSession) (telemetry_volume_identity : Text) :
    Operation Text := do
  let expected_name := session_telemetry_volume_name telemetry_volume_identity
  check_volume_owner expected_name request.session_id
  let listed ← call .list_volumes
  match matching_volumes "session-telemetry" request.session_id listed with
  | _ :: _ :: _ => throw (.multiple_resources request.session_id)
  | [volume] => do
    validate_telemetry_volume_labels "Docker volume" volume.name volume.labels
    pure volume.name
  | [] => do
    fail_if (recovery_expected request) (.missing_volume request.session_id)
    ensure_volume expected_name (session_telemetry_labels request)
    match ← call (.inspect_volume expected_name) with
    | none => throw (.disappeared expected_name)
    | some created => do
      fail_if (created.labels[LABEL_SESSION_ID]? ≠ some request.session_id)
        (.identity_collision "volume name" expected_name request.session_id)
      validate_telemetry_volume_labels "Docker volume" created.name created.labels
      pure expected_name

/-- `ensure_session_telemetry_volume`. -/
def ensure_session_telemetry_volume (request : RuntimeCreateSession) : Operation (Option Text) :=
  match request.telemetry_volume_identity with
  | none => pure none
  | some telemetry_volume_identity => some <$> ensure_telemetry_volume request telemetry_volume_identity

/-- `ensure_copilot_state_volume`. -/
def ensure_copilot_state_volume (config : DockerRuntimeConfig) (request : RuntimeCreateSession) :
    Operation Unit :=
  if request.harness ≠ .CopilotCli then pure ()
  else do
    match ← call (.inspect_volume config.copilot_volume) with
    | some _ => pure ()
    | none => do
      fail_if (recovery_expected request) (.missing_copilot_volume config.copilot_volume)
      ensure_volume config.copilot_volume
        (btree_map [(LABEL_ROLE, "copilot-state".toList), (LABEL_MANAGED, "true".toList)])

/-- The containers of a session. -/
def matching_containers (session_id : Text) (containers : List DockerContainerResource) :
    List DockerContainerResource :=
  containers.filter fun container => container.labels[LABEL_SESSION_ID]? = some session_id

/-- What is under the name is not another's. -/
def check_container_owner (name session_id : Text) : Operation Unit := do
  match ← call (.inspect_container name) with
  | some container =>
    fail_if (container.labels[LABEL_SESSION_ID]? ≠ some session_id)
      (.identity_collision "container name" name session_id)
  | none => pure ()

/-- `matching_kernel_container`. -/
def matching_kernel_container (request : RuntimeCreateSession) :
    Operation (Option DockerContainerResource) := do
  check_container_owner (kernel_container_name request.session_id) request.session_id
  let listed ← call .list_containers
  match matching_containers request.session_id listed with
  | _ :: _ :: _ => throw (.multiple_resources request.session_id)
  | [] => pure none
  | [container] => do
    validate_session_resource_labels "Docker container" container.name container.labels "kernel"
      request.interaction_mode
    fail_if (container.labels["agentspace.harness".toList]? ≠ some request.harness.as_str.toList)
      (.incompatible_harness container.name)
    pure (some container)

/-- `workspace_volume_mount`, one after another. -/
def workspace_volume_mounts : List WorkspaceMount → Operation (List VolumeMount)
  | [] => pure []
  | mount :: mounts => do
    ensure_volume mount.effective_volume_name
      (btree_map [(LABEL_ROLE, "workspace".toList), (LABEL_MANAGED, "true".toList)])
    let rest ← workspace_volume_mounts mounts
    pure (⟨mount.effective_volume_name, mount.mount_path⟩ :: rest)

/-- `skill_volume_mount`, one after another. -/
def skill_volume_mounts : List SkillVolumeResource → Operation (List VolumeMount)
  | [] => pure []
  | resource :: resources => do
    ensure_volume resource.volume_name
      (btree_map [(LABEL_ROLE, "skill-resource".toList), (LABEL_MANAGED, "true".toList),
        ("agentspace.skill_id".toList, resource.skill_id), (LABEL_RESOURCE_ID, resource.resource_id)])
    let rest ← skill_volume_mounts resources
    pure (⟨resource.volume_name, resource.mount_path⟩ :: rest)

/-- `kernel_volumes`. -/
def kernel_volumes (config : DockerRuntimeConfig) (session_workspace_volume : Text)
    (session_telemetry_volume : Option Text) (request : RuntimeCreateSession) :
    Operation (List VolumeMount) := do
  let workspaces ← workspace_volume_mounts request.workspace_mounts
  let skills ← skill_volume_mounts request.skill_volumes
  pure (⟨session_workspace_volume, SESSION_WORKSPACE_MOUNT_PATH⟩
    :: (session_telemetry_volume.toList.map fun volume => ⟨volume, SESSION_TELEMETRY_MOUNT_PATH⟩)
    ++ [⟨config.copilot_volume, "/root/.copilot".toList⟩, ⟨config.skills_volume, "/mnt/all-skills".toList⟩]
    ++ workspaces ++ skills)

/-- `run_kernel_container`. -/
def run_kernel_container (config : DockerRuntimeConfig) (container_name session_workspace_volume : Text)
    (session_telemetry_volume : Option Text) (request : RuntimeCreateSession) : Operation Unit := do
  let volumes ← kernel_volumes config session_workspace_volume session_telemetry_volume request
  run_container ⟨container_name, kernel_labels request, volumes⟩

/-- The container has a volume at a path, the one that is expected. -/
def check_mount (container : DockerContainerResource) (session_id mount_path expected : Text) :
    Operation Unit :=
  match container.mounts[mount_path]? with
  | none => throw (.no_mount container.name session_id mount_path)
  | some mounted =>
    fail_if (mounted ≠ expected) (.wrong_mount container.name session_id mounted expected)

/-- An operation on the telemetry volume, if there is one. -/
def on_telemetry_volume (session_telemetry_volume : Option Text) (f : Text → Operation Unit) :
    Operation Unit :=
  match session_telemetry_volume with
  | some name => f name
  | none => pure ()

/-- The part of `create_session` that comes by a container: the one that is running, or a
new one. -/
def kernel_container (config : DockerRuntimeConfig) (request : RuntimeCreateSession)
    (workspace_volume_name : Text) (telemetry_volume_name : Option Text) :
    Option DockerContainerResource → Operation Text
  | some container =>
    if container.running then do
      check_mount container request.session_id SESSION_WORKSPACE_MOUNT_PATH workspace_volume_name
      on_telemetry_volume telemetry_volume_name
        (check_mount container request.session_id SESSION_TELEMETRY_MOUNT_PATH)
      pure container.name
    else do
      call (.remove_container container.name)
      run_kernel_container config (kernel_container_name request.session_id) workspace_volume_name
        telemetry_volume_name request
      pure (kernel_container_name request.session_id)
  | none => do
    run_kernel_container config (kernel_container_name request.session_id) workspace_volume_name
      telemetry_volume_name request
    pure (kernel_container_name request.session_id)

/-- `create_session`. -/
def create_session (config : DockerRuntimeConfig) (request : RuntimeCreateSession) :
    Operation DockerKernelSession := do
  ensure_copilot_state_volume config request
  let workspace_volume_name ← ensure_session_workspace_volume request
  let telemetry_volume_name ← ensure_session_telemetry_volume request
  let matching_container ← matching_kernel_container request
  let container_name ← kernel_container config request workspace_volume_name telemetry_volume_name
    matching_container
  let _ ← call (.container_host_port container_name config.vscode_container_port)
  let _ ← call (.container_host_port container_name config.free_port_container_port)
  call (.healthz (config.base_url_template container_name))
  pure ⟨request.session_id, container_name, workspace_volume_name, telemetry_volume_name⟩

/-- A volume that is under the name is managed, of the role and the session's. -/
def check_volume_identity (name session_id : Text) (role : String) : Operation Unit := do
  match ← call (.inspect_volume name) with
  | some volume =>
    fail_if (¬is_managed_role volume.labels role ∨ volume.labels[LABEL_SESSION_ID]? ≠ some session_id)
      (.identity_collision "volume name" name session_id)
  | none => pure ()

/-- A container that is under the name is a managed kernel and the session's. -/
def check_container_identity (name session_id : Text) : Operation Unit := do
  match ← call (.inspect_container name) with
  | some container =>
    fail_if (¬is_managed_role container.labels "kernel"
        ∨ container.labels[LABEL_SESSION_ID]? ≠ some session_id)
      (.identity_collision "container name" name session_id)
  | none => pure ()

/-- `destroy_session`. -/
def destroy_session (handle : DockerKernelSession) : Operation Unit := do
  check_container_identity handle.container_name handle.session_id
  check_volume_identity handle.session_workspace_volume_name handle.session_id "session-workspace"
  on_telemetry_volume handle.session_telemetry_volume_name fun name =>
    check_volume_identity name handle.session_id "session-telemetry"
  call (.remove_container handle.container_name)
  call (.remove_volume handle.session_workspace_volume_name)
  on_telemetry_volume handle.session_telemetry_volume_name fun name => call (.remove_volume name)

/-- The managed kernels of a session. -/
def managed_kernels (session_id : Text) (containers : List DockerContainerResource) :
    List DockerContainerResource :=
  containers.filter fun container =>
    is_managed_role container.labels "kernel" && container.labels[LABEL_SESSION_ID]? = some session_id

/-- `if let Some(container) = containers.pop()`. -/
def remove_popped_container (containers : List DockerContainerResource) : Operation Unit :=
  match containers.getLast? with
  | some container => call (.remove_container container.name)
  | none => pure ()

/-- `if let Some(volume) = volumes.pop()`. -/
def remove_popped_volume (volumes : List DockerVolumeResource) : Operation Unit :=
  match volumes.getLast? with
  | some volume => call (.remove_volume volume.name)
  | none => pure ()

/-- `destroy_session_by_id`. -/
def destroy_session_by_id (session_id : Text) : Operation Unit := do
  let containers ← call .list_containers
  let containers := managed_kernels session_id containers
  let workspace_volumes ← call .list_volumes
  let workspace_volumes := matching_volumes "session-workspace" session_id workspace_volumes
  let telemetry_volumes ← call .list_volumes
  let telemetry_volumes := matching_volumes "session-telemetry" session_id telemetry_volumes
  fail_if (containers.length > 1 ∨ workspace_volumes.length > 1 ∨ telemetry_volumes.length > 1)
    (.multiple_resources session_id)
  fail_if (containers = [] ∧ workspace_volumes = [] ∧ telemetry_volumes = [])
    (.session_not_found session_id)
  remove_popped_container containers
  remove_popped_volume workspace_volumes
  remove_popped_volume telemetry_volumes

end AgentSpace.Docker
