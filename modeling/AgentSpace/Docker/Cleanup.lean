/-
Runtime cleanup: `cleanup_orphans` and `delete_reviewed_orphans`.

A dry run lists what is managed and owned by no session. What is deleted is only what
has been reviewed: its identity is looked up again and compared, one resource after
another, in the order of the identities.
-/
import AgentSpace.Docker.Alone

set_option autoImplicit false

namespace AgentSpace.Docker

open Lib Operation

/-! ## Identities and reports -/

/-- `CleanupResourceKind`. -/
inductive CleanupResourceKind where
  | KernelContainer
  | SessionWorkspaceVolume
  | SessionTelemetryVolume
  deriving DecidableEq

/-- The role that a resource of the kind has. -/
def CleanupResourceKind.role : CleanupResourceKind → String
  | KernelContainer => "kernel"
  | SessionWorkspaceVolume => "session-workspace"
  | SessionTelemetryVolume => "session-telemetry"

/-- `CleanupResourceIdentity`. -/
structure CleanupResourceIdentity where
  kind : CleanupResourceKind
  name : Text
  resource_id : Text
  session_id : Option Text
  deriving DecidableEq

/-- The derived order of kinds. -/
def CleanupResourceKind.index : CleanupResourceKind → ℕ
  | KernelContainer => 0
  | SessionWorkspaceVolume => 1
  | SessionTelemetryVolume => 2

/-- The derived order of identities. -/
def CleanupResourceIdentity.cmp (a b : CleanupResourceIdentity) : Ordering :=
  (compare a.kind.index b.kind.index).then <| (compare a.name b.name).then <|
    (compare a.resource_id b.resource_id).then <| compare a.session_id b.session_id

/-- The elements of a `BTreeSet` of identities, in order. -/
def btree_set (identities : List CleanupResourceIdentity) : List CleanupResourceIdentity :=
  identities.dedup.mergeSort fun a b => (a.cmp b).isLE

/-- `CleanupAction`. -/
inductive CleanupAction where
  | WouldDelete
  | Deleted
  | DeleteFailed
  deriving DecidableEq

/-- `CleanupResource`. -/
structure CleanupResource where
  kind : CleanupResourceKind
  name : Text
  resource_id : Text
  session_id : Option Text
  interaction_mode : Option Text
  status : Option Text
  action : CleanupAction
  error : Option AgentHostError

/-- What a report says of a resource is also its identity. -/
def CleanupResource.identity (resource : CleanupResource) : CleanupResourceIdentity :=
  ⟨resource.kind, resource.name, resource.resource_id, resource.session_id⟩

/-- `CleanupReport`. -/
structure CleanupReport where
  dry_run : Bool
  owned_session_count : ℕ
  resources : List CleanupResource
  deleted_count : ℕ
  error_count : ℕ

/-- `cleanup_resource`. -/
def cleanup_resource (kind : CleanupResourceKind) (name resource_id : Text) (labels : Labels)
    (status : Option Text) (dry_run : Bool) (result : Except AgentHostError Unit) : CleanupResource where
  kind := kind
  name := name
  resource_id := resource_id
  session_id := labels[LABEL_SESSION_ID]?
  interaction_mode := labels[LABEL_INTERACTION_MODE]?
  status := status
  action := match result with
    | .ok () => if dry_run then .WouldDelete else .Deleted
    | .error _ => .DeleteFailed
  error := match result with
    | .ok () => none
    | .error e => some e

/-- The report of some resources. -/
def cleanup_report (dry_run : Bool) (owned_session_ids : Finset Text) (resources : List CleanupResource) :
    CleanupReport where
  dry_run := dry_run
  owned_session_count := owned_session_ids.card
  resources := resources
  deleted_count := (resources.filter fun resource => resource.action = .Deleted).length
  error_count := (resources.filter fun resource => resource.action = .DeleteFailed).length

/-! ## Deletion of what has been reviewed -/

/-- `validate_reviewed_resource`. -/
def validate_reviewed_resource (current_resource_id : Text) (labels : Labels)
    (reviewed : CleanupResourceIdentity) (expected_role : String) : Except AgentHostError Unit :=
  if reviewed.resource_id = [] ∨ current_resource_id ≠ reviewed.resource_id
      ∨ ¬is_managed_role labels expected_role ∨ labels[LABEL_SESSION_ID]? ≠ reviewed.session_id then
    .error (.changed_after_review reviewed.name)
  else .ok ()

/-- `validate_reviewed_container`. -/
def validate_reviewed_container (current : Option DockerContainerResource)
    (reviewed : CleanupResourceIdentity) : Except AgentHostError Unit :=
  match current with
  | none => .error (.no_longer_exists reviewed.name)
  | some current => validate_reviewed_resource current.resource_id current.labels reviewed "kernel"

/-- `validate_reviewed_volume`. -/
def validate_reviewed_volume (current : Option DockerVolumeResource) (reviewed : CleanupResourceIdentity)
    (kind : CleanupResourceKind) : Except AgentHostError Unit :=
  match current with
  | none => .error (.no_longer_exists reviewed.name)
  | some current =>
    match kind with
    | .SessionWorkspaceVolume =>
      validate_reviewed_resource current.resource_id current.labels reviewed "session-workspace"
    | .SessionTelemetryVolume =>
      validate_reviewed_resource current.resource_id current.labels reviewed "session-telemetry"
    | .KernelContainer =>
      .error (.upstream "volume cleanup validation received a container resource".toList)

/-- The result of an operation, as a value. -/
def attempt (operation : Operation Unit) : Operation (Except AgentHostError Unit) :=
  ExceptT.mk (Except.ok <$> operation.run)

/-- `match result { Ok(()) => operation.await, Err(error) => Err(error) }`. -/
def and_then (result : Except AgentHostError Unit) (operation : Operation Unit) :
    Operation (Except AgentHostError Unit) :=
  match result with
  | .ok () => attempt operation
  | .error e => pure (.error e)

/-- One reviewed resource. -/
def delete_reviewed_orphan (owned_session_ids : Finset Text) (reviewed : CleanupResourceIdentity) :
    Operation CleanupResource :=
  if ∃ session_id ∈ reviewed.session_id, session_id ∈ owned_session_ids then
    pure (cleanup_resource reviewed.kind reviewed.name reviewed.resource_id ∅ none false (.error .now_owned))
  else match reviewed.kind with
    | .KernelContainer => do
      let current ← call (.inspect_container reviewed.name)
      let result ← and_then (validate_reviewed_container current reviewed)
        (call (.remove_container reviewed.name))
      pure (cleanup_resource reviewed.kind reviewed.name reviewed.resource_id
        ((current.map DockerContainerResource.labels).getD ∅)
        (current.map DockerContainerResource.status) false result)
    | .SessionWorkspaceVolume | .SessionTelemetryVolume => do
      let current ← call (.inspect_volume reviewed.name)
      let result ← and_then (validate_reviewed_volume current reviewed reviewed.kind)
        (call (.remove_volume reviewed.name))
      pure (cleanup_resource reviewed.kind reviewed.name reviewed.resource_id
        ((current.map DockerVolumeResource.labels).getD ∅) none false result)

/-- The loop over the reviewed resources. -/
def delete_each (owned_session_ids : Finset Text) :
    List CleanupResourceIdentity → Operation (List CleanupResource)
  | [] => pure []
  | reviewed :: rest => do
    let resource ← delete_reviewed_orphan owned_session_ids reviewed
    let resources ← delete_each owned_session_ids rest
    pure (resource :: resources)

/-- `delete_reviewed_orphans`. -/
def delete_reviewed_orphans (owned_session_ids : Finset Text)
    (reviewed_resources : List CleanupResourceIdentity) : Operation CleanupReport := do
  let unique := btree_set reviewed_resources
  fail_if (unique.length ≠ reviewed_resources.length) .duplicate_reviewed_resources
  let resources ← delete_each owned_session_ids unique
  pure (cleanup_report false owned_session_ids resources)

/-! ## Cleanup -/

/-- `resource_is_owned`. -/
def resource_is_owned (labels : Labels) (owned_session_ids : Finset Text) : Bool :=
  labels[LABEL_SESSION_ID]?.any fun session_id => session_id ∈ owned_session_ids

/-- The containers of `cleanup_orphans`. -/
def orphaned_containers (owned_session_ids : Finset Text) (containers : List DockerContainerResource) :
    List DockerContainerResource :=
  (containers.filter fun container => is_managed_role container.labels "kernel"
    && !resource_is_owned container.labels owned_session_ids).mergeSort
      fun left right => (compare left.name right.name).isLE

/-- The volumes of `cleanup_orphans`, for a role. -/
def orphaned_volumes (role : String) (owned_session_ids : Finset Text)
    (volumes : List DockerVolumeResource) : List DockerVolumeResource :=
  (volumes.filter fun volume => is_managed_role volume.labels role
    && !resource_is_owned volume.labels owned_session_ids).mergeSort
      fun left right => (compare left.name right.name).isLE

/-- What a dry run says of a container. -/
def listed_container (container : DockerContainerResource) : CleanupResource :=
  cleanup_resource .KernelContainer container.name container.resource_id container.labels
    (some container.status) true (.ok ())

/-- What a dry run says of a volume. -/
def listed_volume (kind : CleanupResourceKind) (volume : DockerVolumeResource) : CleanupResource :=
  cleanup_resource kind volume.name volume.resource_id volume.labels none true (.ok ())

/-- The part of `cleanup_orphans` that deletes nothing. -/
def list_orphans (owned_session_ids : Finset Text) : Operation CleanupReport := do
  let containers ← call .list_containers
  let volumes ← call .list_volumes
  let telemetry_volumes ← call .list_volumes
  pure (cleanup_report true owned_session_ids
    ((orphaned_containers owned_session_ids containers).map listed_container
      ++ (orphaned_volumes "session-workspace" owned_session_ids volumes).map
        (listed_volume .SessionWorkspaceVolume)
      ++ (orphaned_volumes "session-telemetry" owned_session_ids telemetry_volumes).map
        (listed_volume .SessionTelemetryVolume)))

/-- `cleanup_orphans`. -/
def cleanup_orphans (owned_session_ids : Finset Text) (dry_run : Bool)
    (reviewed_resources : Option (List CleanupResourceIdentity)) : Operation CleanupReport :=
  if dry_run then list_orphans owned_session_ids
  else match reviewed_resources with
    | none => throw .reviewed_resources_required
    | some reviewed_resources => delete_reviewed_orphans owned_session_ids reviewed_resources

end AgentSpace.Docker
