/-
Docker as the agent host uses it: containers and volumes under unique names, each with
labels, and the calls on them.

A call is one atomic step. What the repository does not decide is a choice (`Choice`). A
call that fails has no effect; a volume that is there is not created again; removing what
is not there succeeds.
-/
import AgentSpace.Lib.Table
import AgentSpace.Lib.Threads
import AgentSpace.Text

set_option autoImplicit false

namespace AgentSpace.Docker

open Lib

/-! ## Resources -/

/-- A `BTreeMap` of texts. -/
abbrev Labels := Std.ExtTreeMap Text Text compare

/-- `btree_map`. -/
def btree_map (entries : List (Text × Text)) : Labels :=
  entries.foldl (fun labels entry => labels.insert entry.1 entry.2) ∅

/-- `DockerContainerResource`. -/
structure DockerContainerResource where
  name : Text
  resource_id : Text
  labels : Labels
  running : Bool
  status : Text
  mounts : Labels

/-- `DockerVolumeResource`. -/
structure DockerVolumeResource where
  name : Text
  resource_id : Text
  labels : Labels

/-- What there is: no two containers and no two volumes have one name. -/
structure Engine where
  containers : Table DockerContainerResource.name
  volumes : Table DockerVolumeResource.name

/-- `VolumeMount`. -/
structure VolumeMount where
  volume_name : Text
  bind : Text

/-- `ContainerRunSpec`, as far as it decides what the container is. -/
structure ContainerRunSpec where
  name : Text
  labels : Labels
  volumes : List VolumeMount

/-- `AgentHostError`, by the place it comes from. -/
inductive AgentHostError where
  /-- `identity_collision`. -/
  | identity_collision (resource_kind : String) (resource_name session_id : Text)
  | multiple_resources (session_id : Text)
  | incompatible_labels (resource_kind : String) (resource_name : Text)
  | incompatible_harness (container_name : Text)
  | missing_volume (session_id : Text)
  | missing_copilot_volume (volume_name : Text)
  | disappeared (volume_name : Text)
  | no_mount (container_name session_id mount_path : Text)
  | wrong_mount (container_name session_id mounted expected : Text)
  | session_not_found (session_id : Text)
  | duplicate_reviewed_resources
  | reviewed_resources_required
  | now_owned
  | no_longer_exists (resource_name : Text)
  | changed_after_review (resource_name : Text)
  /-- What Docker or the container itself answers. -/
  | upstream (detail : Text)
  deriving DecidableEq

/-! ## Calls -/

/-- A call of the backend, of the clock, or of the kernel in a container. -/
inductive Call where
  | inspect_container (container_name : Text)
  | list_containers
  | inspect_volume (volume_name : Text)
  | list_volumes
  | create_volume (volume_name : Text) (labels : Labels)
  | create_container (spec : ContainerRunSpec)
  | start_container (container_name : Text)
  | remove_container (container_name : Text)
  | remove_volume (volume_name : Text)
  | container_host_port (container_name : Text) (container_port : ℕ)
  | healthz (base_url : Text)
  | now_v7

/-- What a call returns when it does not fail. -/
abbrev Call.Value : Call → Type
  | inspect_container _ => Option DockerContainerResource
  | list_containers => List DockerContainerResource
  | inspect_volume _ => Option DockerVolumeResource
  | list_volumes => List DockerVolumeResource
  | container_host_port _ _ => Option ℕ
  | now_v7 => Text
  | _ => Unit

/-- What a call answers. -/
abbrev Call.Answer (c : Call) : Type := Except AgentHostError c.Value

/-- What the repository does not decide. -/
structure Choice where
  /-- The containers that have exited since the last call, and are gone. -/
  exited : Text → Bool
  /-- The call fails, with a detail. -/
  fails : Option Text
  /-- An id, or a time of creation. -/
  id : Text
  /-- A port of the host. -/
  port : Option ℕ

namespace Engine

/-- Some containers are gone. -/
def without_exited (s : Engine) (exited : Text → Bool) : Engine :=
  { s with containers := s.containers.retain fun name => !exited name }

/-- The container of a specification, once it is created. -/
def created (spec : ContainerRunSpec) (id : Text) : DockerContainerResource where
  name := spec.name
  resource_id := id
  labels := spec.labels
  running := false
  status := "created".toList
  mounts := btree_map (spec.volumes.map fun volume => (volume.bind, volume.volume_name))

/-- The volume with the labels; `LABEL_RESOURCE_ID` goes before the time of creation. -/
def volume_resource (name : Text) (labels : Labels) (created_at : Text) : DockerVolumeResource where
  name := name
  resource_id := (labels["agentspace.resource_id".toList]?).getD created_at
  labels := labels

/-- The call, once it is known that it does not fail. -/
def answer (s : Engine) (choice : Choice) : (c : Call) → c.Answer × Engine
  | .inspect_container name => (.ok (s.containers.get name), s)
  | .list_containers => (.ok s.containers.rows, s)
  | .inspect_volume name => (.ok (s.volumes.get name), s)
  | .list_volumes => (.ok s.volumes.rows, s)
  | .create_volume name labels =>
    (.ok (), match s.volumes.get name with
      | some _ => s
      | none => { s with volumes := s.volumes.put (volume_resource name labels choice.id) })
  | .create_container spec =>
    match s.containers.get spec.name with
    | some _ => (.error (.upstream "Conflict. The container name is already in use".toList), s)
    | none => (.ok (), { s with containers := s.containers.put (created spec choice.id) })
  | .start_container name =>
    match s.containers.get name with
    | none => (.error (.upstream "No such container".toList), s)
    | some container => (.ok (), { s with
        containers := s.containers.put { container with running := true, status := "running".toList } })
  | .remove_container name => (.ok (), { s with containers := s.containers.retain fun n => n ≠ name })
  | .remove_volume name => (.ok (), { s with volumes := s.volumes.retain fun n => n ≠ name })
  | .container_host_port _ _ => (.ok choice.port, s)
  | .healthz _ => (.ok (), s)
  | .now_v7 => (.ok choice.id, s)

/-- The call. -/
def exec (c : Call) (choice : Choice) (s : Engine) : c.Answer × Engine :=
  let s := s.without_exited choice.exited
  match choice.fails with
  | some detail => (.error (.upstream detail), s)
  | none => s.answer choice c

end Engine

/-! ## Labels -/

def LABEL_INTERACTION_MODE : Text := "agentspace.interaction_mode".toList

def LABEL_MANAGED : Text := "agentspace.managed".toList

def LABEL_RESOURCE_ID : Text := "agentspace.resource_id".toList

def LABEL_ROLE : Text := "agentspace.role".toList

def LABEL_SESSION_ID : Text := "agentspace.session_id".toList

/-- `is_managed_role`. -/
def is_managed_role (labels : Labels) (role : String) : Bool :=
  labels[LABEL_MANAGED]? = some "true".toList && labels[LABEL_ROLE]? = some role.toList

theorem getElem?_btree_map (entries : List (Text × Text)) (key : Text) :
    (btree_map entries)[key]? = entries.reverse.lookup key := by
  induction entries using List.reverseRecOn with
  | nil => exact Std.ExtTreeMap.getElem?_empty
  | append_singleton entries entry ih =>
    rw [btree_map, List.foldl_append, List.foldl_cons, List.foldl_nil, ← btree_map,
      List.reverse_append, List.reverse_singleton, List.singleton_append, List.lookup_cons,
      Std.ExtTreeMap.getElem?_insert, ih]
    by_cases hkey : key = entry.1
    · rw [hkey, beq_self_eq_true, if_pos (Std.ReflCmp.compare_self)]
    · rw [beq_false_of_ne hkey, if_neg]
      intro h
      exact hkey (Std.LawfulEqCmp.eq_of_compare h).symm

theorem getElem?_insert_label (labels : Labels) (key value other : Text) :
    (labels.insert key value)[other]? = if key = other then some value else labels[other]? := by
  rw [Std.ExtTreeMap.getElem?_insert]
  simp only [Std.LawfulEqCmp.compare_eq_iff_eq]

/-! ## What a call leaves -/

namespace Engine

variable {s : Engine} {choice : Choice}

theorem mem_without_exited {exited : Text → Bool} {container : DockerContainerResource}
    (h : container ∈ (s.without_exited exited).containers.rows) : container ∈ s.containers.rows :=
  (Table.mem_rows_retain.1 h).1

@[simp] theorem volumes_without_exited (exited : Text → Bool) :
    (s.without_exited exited).volumes = s.volumes := rfl

/-- A container is one that was there, or the one that is created or started. -/
theorem container_cases (c : Call) {container : DockerContainerResource}
    (h : container ∈ (exec c choice s).2.containers.rows) :
    (∃ before ∈ s.containers.rows, before.name = container.name ∧ before.labels = container.labels
        ∧ before.mounts = container.mounts)
      ∨ ∃ spec, c = .create_container spec ∧ container = created spec choice.id := by
  unfold exec at h
  dsimp only at h
  have hkept : ∀ {x : DockerContainerResource}, x ∈ (s.without_exited choice.exited).containers.rows →
      (∃ before ∈ s.containers.rows, before.name = x.name ∧ before.labels = x.labels
        ∧ before.mounts = x.mounts) :=
    fun hx => ⟨_, mem_without_exited hx, rfl, rfl, rfl⟩
  cases hfails : choice.fails with
  | some e =>
    rw [hfails] at h
    exact Or.inl (hkept h)
  | none =>
    rw [hfails] at h
    dsimp only at h
    cases c with
    | create_container spec =>
      simp only [answer] at h
      split at h
      · exact Or.inl (hkept h)
      · rcases Table.mem_rows_put h with rfl | h
        · exact Or.inr ⟨spec, rfl, rfl⟩
        · exact Or.inl (hkept h)
    | start_container name =>
      simp only [answer] at h
      split at h
      · exact Or.inl (hkept h)
      · rename_i before hbefore
        rcases Table.mem_rows_put h with rfl | h
        · exact Or.inl ⟨before, mem_without_exited (Table.get_eq_some_iff.1 hbefore).1, rfl, rfl, rfl⟩
        · exact Or.inl (hkept h)
    | remove_container name => exact Or.inl (hkept (Table.mem_rows_retain.1 h).1)
    | create_volume name labels =>
      simp only [answer] at h
      split at h
      · exact Or.inl (hkept h)
      · exact Or.inl (hkept h)
    | inspect_container name | list_containers | inspect_volume name | list_volumes
    | remove_volume name | container_host_port name port | healthz url | now_v7 =>
      exact Or.inl (hkept h)

/-- A volume is one that was there, or the one that is created. -/
theorem volume_cases (c : Call) {volume : DockerVolumeResource}
    (h : volume ∈ (exec c choice s).2.volumes.rows) :
    volume ∈ s.volumes.rows
      ∨ ∃ name labels, c = .create_volume name labels
        ∧ volume = volume_resource name labels choice.id := by
  unfold exec at h
  dsimp only at h
  cases hfails : choice.fails with
  | some e =>
    rw [hfails] at h
    exact Or.inl h
  | none =>
    rw [hfails] at h
    dsimp only at h
    cases c with
    | create_volume name labels =>
      simp only [answer] at h
      split at h
      · exact Or.inl h
      · rcases Table.mem_rows_put h with rfl | h
        · exact Or.inr ⟨name, labels, rfl, rfl⟩
        · exact Or.inl h
    | remove_volume name => exact Or.inl (Table.mem_rows_retain.1 h).1
    | create_container spec =>
      simp only [answer] at h
      split at h
      · exact Or.inl h
      · exact Or.inl h
    | start_container name =>
      simp only [answer] at h
      split at h
      · exact Or.inl h
      · exact Or.inl h
    | inspect_container name | list_containers | inspect_volume name | list_volumes
    | remove_container name | container_host_port name port | healthz url | now_v7 =>
      exact Or.inl h

end Engine

end AgentSpace.Docker
