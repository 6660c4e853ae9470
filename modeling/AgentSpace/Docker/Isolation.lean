/-
Two sessions on one Docker.

What carries the id of a session is under a name made of its ids (`Named`), so sessions
whose names differ keep out of each other's way however their operations interleave.
Where a name is shared, a session is destroyed between its last look and its act.
-/
import AgentSpace.Docker.Alone

set_option autoImplicit false

namespace AgentSpace.Docker

open Lib Operation

/-! ## Sessions and their operations -/

/-- What names are made of. -/
structure Session where
  session_id : Text
  telemetry_volume_identity : Option Text

namespace Session

variable (x : Session)

/-- The names of the volumes. -/
def volume_names : List Text :=
  session_workspace_volume_name x.session_id
    :: x.telemetry_volume_identity.toList.map session_telemetry_volume_name

/-- The handle that `create_session` returns for the session. -/
def handle : DockerKernelSession where
  session_id := x.session_id
  container_name := kernel_container_name x.session_id
  session_workspace_volume_name := session_workspace_volume_name x.session_id
  session_telemetry_volume_name := x.telemetry_volume_identity.map session_telemetry_volume_name

end Session

/-- An operation of the runtime. -/
inductive Op where
  | create_session (request : RuntimeCreateSession)
  | destroy_session (handle : DockerKernelSession)
  | destroy_session_by_id (session_id : Text)

namespace Op

/-- The program of the operation. -/
def program (config : DockerRuntimeConfig) :
    Op → Prog Call Call.Answer (Except AgentHostError (Option DockerKernelSession))
  | create_session request => (some <$> Docker.create_session config request).run
  | destroy_session handle => ((fun _ => none) <$> Docker.destroy_session handle).run
  | destroy_session_by_id session_id =>
    ((fun _ => none) <$> Docker.destroy_session_by_id session_id).run

/-- The operation is one for the session. -/
def For (x : Session) : Op → Prop
  | create_session request => request.session_id = x.session_id
      ∧ request.telemetry_volume_identity = x.telemetry_volume_identity
  | destroy_session handle => handle = x.handle
  | destroy_session_by_id session_id => session_id = x.session_id

/-- The operation destroys a session. -/
def Destroys : Op → Prop
  | create_session _ => False
  | _ => True

end Op

/-- Threads over Docker. -/
abbrev Runs := Threads ℕ Call (Except AgentHostError (Option DockerKernelSession)) Engine Call.Answer

/-- The container with the name has the label of the session. -/
def ContainerOf (s : Engine) (name session_id : Text) : Prop :=
  ∃ container ∈ s.containers.rows, container.name = name
    ∧ container.labels[LABEL_SESSION_ID]? = some session_id

/-- The volume with the name has the label of the session. -/
def VolumeOf (s : Engine) (name session_id : Text) : Prop :=
  ∃ volume ∈ s.volumes.rows, volume.name = name ∧ volume.labels[LABEL_SESSION_ID]? = some session_id

/-- The handle names nothing with the label of the session. -/
structure NamesNothingOf (s : Engine) (session_id : Text) (handle : DockerKernelSession) : Prop where
  container : ¬ContainerOf s handle.container_name session_id
  workspace : ¬VolumeOf s handle.session_workspace_volume_name session_id
  telemetry : ∀ name ∈ handle.session_telemetry_volume_name, ¬VolumeOf s name session_id

/-- The call removes nothing with the label of the session. -/
def RemovesNothingOf (s : Engine) (session_id : Text) : Call → Prop
  | .remove_container name => ¬ContainerOf s name session_id
  | .remove_volume name => ¬VolumeOf s name session_id
  | _ => True

section Isolation

variable (config : DockerRuntimeConfig) (sessions : Bool → Session) (side : ℕ → Bool) (ops : ℕ → Op)

/-- A step that respects the other session: a handle that is returned names nothing of
it, and a call of an operation that destroys removes nothing of it. -/
structure Respects (s : Runs) (move : Move ℕ Choice) (t : Runs) : Prop where
  returns : ∀ handle, t.rest move.thread = .ret (.ok (some handle)) →
    NamesNothingOf t.state (sessions !(side move.thread)).session_id handle
  removes : (ops move.thread).Destroys → ∀ c k, s.rest move.thread = .call c k →
    RemovesNothingOf (s.state.without_exited move.choice.exited)
      (sessions !(side move.thread)).session_id c

/-- What has the label of the session has a name of the session. -/
structure Named (x : Session) (s : Engine) : Prop where
  containers : ∀ container ∈ s.containers.rows,
    container.labels[LABEL_SESSION_ID]? = some x.session_id →
      container.name = kernel_container_name x.session_id
  volumes : ∀ volume ∈ s.volumes.rows, volume.labels[LABEL_SESSION_ID]? = some x.session_id →
    volume.name ∈ x.volume_names

/-- However operations for the two sessions interleave, each respects the other. -/
def Isolated : Prop :=
  ∀ (side : ℕ → Bool) (ops : ℕ → Op) (init : Engine) (moves : List (Move ℕ Choice)) (t : Runs),
    (∀ i, (ops i).For (sessions (side i))) → (∀ b, Named (sessions b) init) →
    Run (Advance calls) ⟨init, fun i => (ops i).program config⟩ moves t →
    Run (Guarded (Advance calls) (Respects sessions side ops))
      ⟨init, fun i => (ops i).program config⟩ moves t

/-- No container name and no volume name is shared. -/
def Apart (x y : Session) : Prop :=
  first_n x.session_id 12 ≠ first_n y.session_id 12
    ∧ ∀ i ∈ x.telemetry_volume_identity, ∀ j ∈ y.telemetry_volume_identity,
      first_n i 12 ≠ first_n j 12

end Isolation

/-! ## What operations do -/

/-- The answer shows only what has the right names. -/
def Shows (x : Session) : (c : Call) → c.Answer → Prop
  | .list_containers, .ok containers => ∀ container ∈ containers,
      container.labels[LABEL_SESSION_ID]? = some x.session_id →
        container.name = kernel_container_name x.session_id
  | .list_volumes, .ok volumes => ∀ volume ∈ volumes,
      volume.labels[LABEL_SESSION_ID]? = some x.session_id → volume.name ∈ x.volume_names
  | _, _ => True

/-- The call creates and removes under names of the session only, and what it labels it
labels with the session. -/
def Keeps (x : Session) : Call → Prop
  | .create_volume name labels => labels[LABEL_SESSION_ID]? = none
      ∨ labels[LABEL_SESSION_ID]? = some x.session_id ∧ name ∈ x.volume_names
  | .create_container spec => spec.labels[LABEL_SESSION_ID]? = some x.session_id
      ∧ spec.name = kernel_container_name x.session_id
  | .remove_container name => name = kernel_container_name x.session_id
  | .remove_volume name => name ∈ x.volume_names
  | _ => True

section Programs

variable {x : Session} {config : DockerRuntimeConfig} {request : RuntimeCreateSession}

/-- The operation is sound for the session. -/
abbrev SoundFor {α : Type} (x : Session) (operation : Operation α) (results : α → Prop) : Prop :=
  Prog.SoundE (Shows x) (Keeps x) results operation

theorem sound_call {c : Call} (h : Keeps x c) : SoundFor x (call c) fun value => Shows x c (.ok value) :=
  ⟨h, fun r hr => by
    cases r with
    | ok value => exact hr
    | error e => trivial⟩

theorem sound_call' {c : Call} (h : Keeps x c) : SoundFor x (call c) fun _ => True :=
  ⟨h, fun r _ => by
    cases r with
    | ok value => trivial
    | error e => trivial⟩

theorem sound_pure {α : Type} (a : α) : SoundFor x (pure a) fun _ => True := trivial

theorem sound_fail_if (condition : Prop) [Decidable condition] (error : AgentHostError) :
    SoundFor x (fail_if condition error) fun _ => True := by
  unfold fail_if
  split
  · exact .throw
  · exact trivial

theorem sound_ensure_volume {name : Text} {labels : Labels} (h : Keeps x (.create_volume name labels)) :
    SoundFor x (ensure_volume name labels) fun _ => True := by
  refine .bind (sound_call' trivial) fun found _ => ?_
  cases found with
  | some volume => exact sound_pure ()
  | none => exact sound_call' h

theorem sound_run_container {spec : ContainerRunSpec} (h : Keeps x (.create_container spec)) :
    SoundFor x (run_container spec) fun _ => True :=
  Prog.SoundE.bind (sound_call' h) fun _ _ => sound_call' trivial

variable (name session_id : Text)

theorem sound_check_volume_owner : SoundFor x (check_volume_owner name session_id) fun _ => True := by
  refine .bind (sound_call' trivial) fun found _ => ?_
  cases found with
  | some volume => exact sound_fail_if _ _
  | none => exact sound_pure ()

theorem mem_matching_volumes {role : String} {session_id : Text} {listed : List DockerVolumeResource}
    {volume : DockerVolumeResource} (h : volume ∈ matching_volumes role session_id listed) :
    volume ∈ listed ∧ volume.labels[LABEL_SESSION_ID]? = some session_id := by
  obtain ⟨hmem, hmatch⟩ := List.mem_filter.1 h
  rw [Bool.and_eq_true, decide_eq_true_eq] at hmatch
  exact ⟨hmem, hmatch.2⟩

theorem label_workspace (resource_id : Text) :
    ((session_workspace_labels request).insert LABEL_RESOURCE_ID resource_id)[LABEL_SESSION_ID]?
      = some request.session_id := by
  rw [getElem?_insert_label, if_neg (by decide), session_workspace_labels, getElem?_btree_map]
  rfl

theorem label_telemetry : (session_telemetry_labels request)[LABEL_SESSION_ID]?
    = some request.session_id := by
  rw [session_telemetry_labels, getElem?_btree_map]
  rfl

theorem label_kernel : (kernel_labels request)[LABEL_SESSION_ID]? = some request.session_id := by
  rw [kernel_labels, getElem?_btree_map]
  rfl

theorem sound_ensure_session_workspace_volume (hid : request.session_id = x.session_id) :
    SoundFor x (ensure_session_workspace_volume request) fun name => name ∈ x.volume_names := by
  refine .bind (sound_check_volume_owner _ _) fun _ _ => ?_
  refine .bind (sound_call (c := .list_volumes) trivial) fun listed hlisted => ?_
  rcases hmatching : matching_volumes "session-workspace" request.session_id listed
    with _ | ⟨volume, _ | ⟨other, rest⟩⟩
  · refine .bind (sound_fail_if _ _) fun _ _ => ?_
    refine .bind (sound_call' trivial) fun resource_id _ => ?_
    have hname : session_workspace_volume_name request.session_id ∈ x.volume_names := by
      rw [hid]
      exact List.mem_cons_self
    refine .bind (sound_ensure_volume (Or.inr ⟨?_, hname⟩)) fun _ _ => ?_
    · rw [label_workspace, hid]
    refine .bind (sound_call' trivial) fun created _ => ?_
    cases created with
    | none => exact .throw
    | some created =>
      refine .bind (sound_fail_if _ _) fun _ _ => ?_
      refine .bind (sound_fail_if _ _) fun _ _ => ?_
      exact hname
  · refine .bind (sound_fail_if _ _) fun _ _ => ?_
    obtain ⟨hmem, hlabel⟩ := mem_matching_volumes (hmatching ▸ List.mem_cons_self)
    exact hlisted volume hmem (hlabel.trans (congrArg some hid))
  · exact .throw

theorem sound_ensure_session_telemetry_volume (hid : request.session_id = x.session_id)
    (htelemetry : request.telemetry_volume_identity = x.telemetry_volume_identity) :
    SoundFor x (ensure_session_telemetry_volume request) fun name => ∀ n ∈ name, n ∈ x.volume_names := by
  unfold ensure_session_telemetry_volume
  cases hidentity : request.telemetry_volume_identity with
  | none => exact fun n hn => by cases hn
  | some identity =>
    have hname : session_telemetry_volume_name identity ∈ x.volume_names := by
      rw [hidentity] at htelemetry
      rw [Session.volume_names, ← htelemetry]
      exact List.mem_cons_of_mem _ List.mem_cons_self
    have hsound : SoundFor x (ensure_telemetry_volume request identity) fun name =>
        name ∈ x.volume_names := by
      refine .bind (sound_check_volume_owner _ _) fun _ _ => ?_
      refine .bind (sound_call (c := .list_volumes) trivial) fun listed hlisted => ?_
      rcases hmatching : matching_volumes "session-telemetry" request.session_id listed
        with _ | ⟨volume, _ | ⟨other, rest⟩⟩
      · refine .bind (sound_fail_if _ _) fun _ _ => ?_
        refine .bind (sound_ensure_volume (Or.inr ⟨?_, hname⟩)) fun _ _ => ?_
        · rw [label_telemetry, hid]
        refine .bind (sound_call' trivial) fun created _ => ?_
        cases created with
        | none => exact .throw
        | some created =>
          refine .bind (sound_fail_if _ _) fun _ _ => ?_
          refine .bind (sound_fail_if _ _) fun _ _ => ?_
          exact hname
      · refine .bind (sound_fail_if _ _) fun _ _ => ?_
        obtain ⟨hmem, hlabel⟩ := mem_matching_volumes (hmatching ▸ List.mem_cons_self)
        exact hlisted volume hmem (hlabel.trans (congrArg some hid))
      · exact .throw
    exact .bind hsound fun name hmem n hn => Option.some.inj hn ▸ hmem

theorem keeps_shared {name : Text} {entries : List (Text × Text)}
    (h : entries.reverse.lookup LABEL_SESSION_ID = none) :
    Keeps x (.create_volume name (btree_map entries)) :=
  Or.inl ((getElem?_btree_map _ _).trans h)

theorem sound_ensure_copilot_state_volume :
    SoundFor x (ensure_copilot_state_volume config request) fun _ => True := by
  unfold ensure_copilot_state_volume
  split
  · exact sound_pure ()
  · refine .bind (sound_call' trivial) fun found _ => ?_
    cases found with
    | some volume => exact sound_pure ()
    | none =>
      refine .bind (sound_fail_if _ _) fun _ _ => ?_
      exact sound_ensure_volume (keeps_shared rfl)

theorem sound_check_container_owner : SoundFor x (check_container_owner name session_id) fun _ => True := by
  refine .bind (sound_call' trivial) fun found _ => ?_
  cases found with
  | some container => exact sound_fail_if _ _
  | none => exact sound_pure ()

theorem sound_matching_kernel_container (hid : request.session_id = x.session_id) :
    SoundFor x (matching_kernel_container request) fun found =>
      ∀ container ∈ found, container.name = kernel_container_name x.session_id := by
  refine .bind (sound_check_container_owner _ _) fun _ _ => ?_
  refine .bind (sound_call (c := .list_containers) trivial) fun listed hlisted => ?_
  rcases hmatching : matching_containers request.session_id listed
    with _ | ⟨container, _ | ⟨other, rest⟩⟩
  · exact fun container hcontainer => by cases hcontainer
  · refine .bind (sound_fail_if _ _) fun _ _ => ?_
    refine .bind (sound_fail_if _ _) fun _ _ => ?_
    have hmem : container ∈ matching_containers request.session_id listed :=
      hmatching ▸ List.mem_cons_self
    obtain ⟨hlist, hlabel⟩ := List.mem_filter.1 hmem
    have hname := hlisted container hlist ((of_decide_eq_true hlabel).trans (congrArg some hid))
    exact fun c hc => Option.some.inj hc ▸ hname
  · exact .throw

theorem sound_workspace_volume_mounts (mounts : List WorkspaceMount) :
    SoundFor x (workspace_volume_mounts mounts) fun _ => True := by
  induction mounts with
  | nil => exact sound_pure []
  | cons mount mounts ih =>
    refine .bind (sound_ensure_volume (keeps_shared rfl)) fun _ _ => ?_
    exact .bind ih fun _ _ => sound_pure _

theorem sound_skill_volume_mounts (resources : List SkillVolumeResource) :
    SoundFor x (skill_volume_mounts resources) fun _ => True := by
  induction resources with
  | nil => exact sound_pure []
  | cons resource resources ih =>
    refine .bind (sound_ensure_volume (keeps_shared rfl)) fun _ _ => ?_
    exact .bind ih fun _ _ => sound_pure _

theorem sound_run_kernel_container (hid : request.session_id = x.session_id)
    (workspace_volume : Text) (telemetry_volume : Option Text) :
    SoundFor x (run_kernel_container config (kernel_container_name request.session_id)
      workspace_volume telemetry_volume request) fun _ => True := by
  have hvolumes : SoundFor x (kernel_volumes config workspace_volume telemetry_volume request)
      fun _ => True := by
    refine .bind (sound_workspace_volume_mounts _) fun _ _ => ?_
    exact .bind (sound_skill_volume_mounts _) fun _ _ => sound_pure _
  have hname : kernel_container_name request.session_id = kernel_container_name x.session_id := by
    rw [hid]
  refine .bind hvolumes fun volumes _ => ?_
  exact sound_run_container ⟨label_kernel.trans (congrArg some hid), hname⟩

theorem sound_check_mount (container : DockerContainerResource) (session_id mount_path expected : Text) :
    SoundFor x (check_mount container session_id mount_path expected) fun _ => True := by
  unfold check_mount
  split
  · exact .throw
  · exact sound_fail_if _ _

/-- The names a handle carries are names of the session. -/
structure HandleOf (x : Session) (handle : DockerKernelSession) : Prop where
  container : handle.container_name = kernel_container_name x.session_id
  workspace : handle.session_workspace_volume_name ∈ x.volume_names
  telemetry : ∀ name ∈ handle.session_telemetry_volume_name, name ∈ x.volume_names

theorem sound_on_telemetry_volume {telemetry_volume : Option Text} {f : Text → Operation Unit}
    (hf : ∀ name ∈ telemetry_volume, SoundFor x (f name) fun _ => True) :
    SoundFor x (on_telemetry_volume telemetry_volume f) fun _ => True := by
  cases telemetry_volume with
  | some name => exact hf name rfl
  | none => exact sound_pure ()

theorem sound_kernel_container (hid : request.session_id = x.session_id) (workspace_volume : Text)
    (telemetry_volume : Option Text) {found : Option DockerContainerResource}
    (hfound : ∀ container ∈ found, container.name = kernel_container_name x.session_id) :
    SoundFor x (kernel_container config request workspace_volume telemetry_volume found) fun name =>
      name = kernel_container_name x.session_id := by
  have hname : kernel_container_name request.session_id = kernel_container_name x.session_id := by
    rw [hid]
  cases found with
  | none => exact .bind (sound_run_kernel_container hid _ _) fun _ _ => hname
  | some container =>
    have hown := hfound container rfl
    have hremove : Keeps x (.remove_container container.name) := hown
    by_cases hrunning : container.running = true
    · rw [kernel_container, if_pos hrunning]
      refine .bind (sound_check_mount _ _ _ _) fun _ _ => ?_
      refine .bind (sound_on_telemetry_volume fun _ _ => ?_) fun _ _ => hown
      exact sound_check_mount _ _ _ _
    · rw [kernel_container, if_neg hrunning]
      refine .bind (sound_call' hremove) fun _ _ => ?_
      exact .bind (sound_run_kernel_container hid _ _) fun _ _ => hname

theorem sound_create_session (hid : request.session_id = x.session_id)
    (htelemetry : request.telemetry_volume_identity = x.telemetry_volume_identity) :
    SoundFor x (create_session config request) (HandleOf x) := by
  refine .bind sound_ensure_copilot_state_volume fun _ _ => ?_
  refine .bind (sound_ensure_session_workspace_volume hid) fun workspace hworkspace => ?_
  refine .bind (sound_ensure_session_telemetry_volume hid htelemetry)
    fun telemetry htelemetry => ?_
  refine .bind (sound_matching_kernel_container hid) fun found hfound => ?_
  refine .bind (sound_kernel_container hid _ _ hfound) fun name hcontainer => ?_
  refine .bind (sound_call' trivial) fun _ _ => ?_
  refine .bind (sound_call' trivial) fun _ _ => ?_
  refine .bind (sound_call' trivial) fun _ _ => ?_
  exact ⟨hcontainer, hworkspace, htelemetry⟩

theorem sound_check_volume_identity (role : String) :
    SoundFor x (check_volume_identity name session_id role) fun _ => True := by
  refine .bind (sound_call' trivial) fun found _ => ?_
  cases found with
  | some volume => exact sound_fail_if _ _
  | none => exact sound_pure ()

theorem sound_check_container_identity :
    SoundFor x (check_container_identity name session_id) fun _ => True := by
  refine .bind (sound_call' trivial) fun found _ => ?_
  cases found with
  | some container => exact sound_fail_if _ _
  | none => exact sound_pure ()

theorem sound_destroy_session : SoundFor x (destroy_session x.handle) fun _ => True := by
  have htelemetry : ∀ name ∈ x.handle.session_telemetry_volume_name, name ∈ x.volume_names := by
    intro name hname
    obtain ⟨identity, hidentity, rfl⟩ := Option.map_eq_some_iff.1 hname
    exact List.mem_cons_of_mem _ (List.mem_map_of_mem (Option.mem_toList.2 hidentity))
  refine .bind (sound_check_container_identity _ _) fun _ _ => ?_
  refine .bind (sound_check_volume_identity _ _ _) fun _ _ => ?_
  refine .bind (sound_on_telemetry_volume fun _ _ => sound_check_volume_identity _ _ _)
    fun _ _ => ?_
  refine .bind (sound_call' rfl) fun _ _ => ?_
  refine .bind (sound_call' List.mem_cons_self) fun _ _ => ?_
  exact sound_on_telemetry_volume fun name hname => sound_call' (htelemetry name hname)

theorem sound_remove_popped_volume {role : String} {volumes : List DockerVolumeResource}
    (h : ∀ volume ∈ volumes, volume.labels[LABEL_SESSION_ID]? = some x.session_id →
      volume.name ∈ x.volume_names) :
    SoundFor x (remove_popped_volume (matching_volumes role x.session_id volumes)) fun _ => True := by
  unfold remove_popped_volume
  split
  · rename_i volume hlast
    obtain ⟨hmem, hlabel⟩ := mem_matching_volumes (List.mem_of_getLast? hlast)
    exact sound_call' (h volume hmem hlabel)
  · exact sound_pure ()

theorem sound_remove_popped_container {containers : List DockerContainerResource}
    (h : ∀ container ∈ containers, container.labels[LABEL_SESSION_ID]? = some x.session_id →
      container.name = kernel_container_name x.session_id) :
    SoundFor x (remove_popped_container (managed_kernels x.session_id containers)) fun _ => True := by
  unfold remove_popped_container
  split
  · rename_i container hlast
    obtain ⟨hmem, hmatch⟩ := List.mem_filter.1 (List.mem_of_getLast? hlast)
    rw [Bool.and_eq_true, decide_eq_true_eq] at hmatch
    have hremove : Keeps x (.remove_container container.name) := h container hmem hmatch.2
    exact sound_call' hremove
  · exact sound_pure ()

theorem sound_destroy_session_by_id : SoundFor x (destroy_session_by_id x.session_id) fun _ => True := by
  refine .bind (sound_call (c := .list_containers) trivial) fun containers hcontainers => ?_
  refine .bind (sound_call (c := .list_volumes) trivial) fun workspaces hworkspaces => ?_
  refine .bind (sound_call (c := .list_volumes) trivial) fun telemetries htelemetries => ?_
  refine .bind (sound_fail_if _ _) fun _ _ => ?_
  refine .bind (sound_fail_if _ _) fun _ _ => ?_
  refine .bind (sound_remove_popped_container hcontainers) fun _ _ => ?_
  refine .bind (sound_remove_popped_volume hworkspaces) fun _ _ => ?_
  exact sound_remove_popped_volume htelemetries

/-- What an operation returns: the handle it returns carries names of the session. -/
def Returns (x : Session) : Except AgentHostError (Option DockerKernelSession) → Prop
  | .ok handle => ∀ hd ∈ handle, HandleOf x hd
  | .error _ => True

theorem sound_no_handle {operation : Operation Unit} (h : SoundFor x operation fun _ => True) :
    SoundFor x ((fun _ => (none : Option DockerKernelSession)) <$> operation) fun handle =>
      ∀ hd ∈ handle, HandleOf x hd :=
  Prog.SoundE.map h fun _ _ _ hhd => by cases hhd

/-- **What an operation does.** It creates and removes under names of its session only,
and a handle it returns carries such names. -/
theorem sound_program {op : Op} (h : op.For x) :
    (op.program config).Sound (Shows x) (Keeps x) (Returns x) := by
  have hreturns : ∀ operation : Operation (Option DockerKernelSession),
      SoundFor x operation (fun handle => ∀ hd ∈ handle, HandleOf x hd) →
        operation.run.Sound (Shows x) (Keeps x) (Returns x) := by
    intro operation hsound
    refine .mono hsound fun result hresult => ?_
    cases result with
    | ok handle => exact hresult
    | error e => trivial
  cases op with
  | create_session request =>
    refine hreturns _ (Prog.SoundE.map (sound_create_session h.1 h.2) ?_)
    exact fun handle hhandle hd hhd => Option.some.inj hhd ▸ hhandle
  | destroy_session handle =>
    obtain rfl : handle = x.handle := h
    exact hreturns _ (sound_no_handle sound_destroy_session)
  | destroy_session_by_id session_id =>
    obtain rfl : session_id = x.session_id := h
    exact hreturns _ (sound_no_handle sound_destroy_session_by_id)

end Programs

/-! ## Names that are apart -/

section Apart

variable {config : DockerRuntimeConfig} {sessions : Bool → Session} {x y : Session}

variable {s : Engine}

theorem Named.without_exited (h : Named x s) (exited : Text → Bool) : Named x (s.without_exited exited) :=
  ⟨fun container hmem => h.containers container (Engine.mem_without_exited hmem), h.volumes⟩

theorem Named.exec {c : Call} {choice : Choice} (h : Named x s) (hkeeps : Keeps x c) :
    Named x (Engine.exec c choice s).2 := by
  refine ⟨fun container hmem hlabel => ?_, fun volume hmem hlabel => ?_⟩
  · rcases Engine.container_cases c hmem with ⟨before, hbefore, hname, hlabels, -⟩ | ⟨spec, rfl, rfl⟩
    · rw [← hname]
      exact h.containers before hbefore (hlabels ▸ hlabel)
    · exact hkeeps.2
  · rcases Engine.volume_cases c hmem with hbefore | ⟨name, labels, rfl, rfl⟩
    · exact h.volumes volume hbefore hlabel
    · rcases hkeeps with hnone | ⟨-, hname⟩
      · rw [show (Engine.volume_resource name labels choice.id).labels = labels from rfl, hnone] at hlabel
        cases hlabel
      · exact hname

theorem Named.exec_of_ne {c : Call} {choice : Choice} (hne : y.session_id ≠ x.session_id)
    (h : Named y s) (hkeeps : Keeps x c) : Named y (Engine.exec c choice s).2 := by
  refine ⟨fun container hmem hlabel => ?_, fun volume hmem hlabel => ?_⟩
  · rcases Engine.container_cases c hmem with ⟨before, hbefore, hname, hlabels, -⟩ | ⟨spec, rfl, rfl⟩
    · rw [← hname]
      exact h.containers before hbefore (hlabels ▸ hlabel)
    · exact absurd (Option.some.inj (hlabel.symm.trans hkeeps.1)) hne
  · rcases Engine.volume_cases c hmem with hbefore | ⟨name, labels, rfl, rfl⟩
    · exact h.volumes volume hbefore hlabel
    · have hlabel' : labels[LABEL_SESSION_ID]? = some y.session_id := hlabel
      rcases hkeeps with hnone | ⟨hown, -⟩
      · rw [hnone] at hlabel'
        cases hlabel'
      · exact absurd (Option.some.inj (hlabel'.symm.trans hown)) hne

theorem Named.shows (h : Named x s) (c : Call) (choice : Choice) :
    Shows x c (Engine.exec c choice s).1 := by
  have h' := h.without_exited choice.exited
  unfold Engine.exec
  dsimp only
  cases choice.fails with
  | some e => cases c <;> trivial
  | none =>
    cases c with
    | list_containers => exact h'.containers
    | list_volumes => exact h'.volumes
    | _ => trivial

theorem kernel_container_name_eq_iff {i j : Text} :
    kernel_container_name i = kernel_container_name j ↔ first_n i 12 = first_n j 12 :=
  ⟨fun h => List.append_cancel_left h, congrArg _⟩

theorem workspace_volume_name_ne_telemetry (i j : Text) :
    session_workspace_volume_name i ≠ session_telemetry_volume_name j := by
  intro h
  have hlength : "agentspace-session-workspace-".toList.length
      = "agentspace-session-telemetry-".toList.length := by decide
  have hprefix := List.append_inj_left h hlength
  exact absurd hprefix (by decide)

theorem volume_names_disjoint (hid : first_n x.session_id 12 ≠ first_n y.session_id 12)
    (htelemetry : ∀ i ∈ x.telemetry_volume_identity, ∀ j ∈ y.telemetry_volume_identity,
      first_n i 12 ≠ first_n j 12) {name : Text} (hx : name ∈ x.volume_names) : name ∉ y.volume_names := by
  intro hy
  rcases List.mem_cons.1 hx with rfl | hx <;> rcases List.mem_cons.1 hy with hy | hy
  · exact hid (List.append_cancel_left hy)
  · obtain ⟨j, -, hj⟩ := List.mem_map.1 hy
    exact workspace_volume_name_ne_telemetry _ _ hj.symm
  · obtain ⟨i, -, hi⟩ := List.mem_map.1 hx
    exact workspace_volume_name_ne_telemetry _ _ (hy.symm.trans hi.symm)
  · obtain ⟨i, hi, rfl⟩ := List.mem_map.1 hx
    obtain ⟨j, hj, hij⟩ := List.mem_map.1 hy
    exact htelemetry i (Option.mem_toList.1 hi) j (Option.mem_toList.1 hj)
      (List.append_cancel_left hij).symm

theorem isolated_of_apart (hne : (sessions false).session_id ≠ (sessions true).session_id)
    (hapart : Apart (sessions false) (sessions true)) : Isolated config sessions := by
  intro side ops init moves t hops hinit hrun
  have hother : ∀ b, (sessions !b).session_id ≠ (sessions b).session_id := by
    intro b
    cases b with
    | false => exact hne.symm
    | true => exact hne
  have hids : ∀ b, first_n (sessions b).session_id 12 ≠ first_n (sessions !b).session_id 12 := by
    intro b
    cases b with
    | false => exact hapart.1
    | true => exact hapart.1.symm
  have hvolumes : ∀ b name, name ∈ (sessions b).volume_names → name ∉ (sessions !b).volume_names := by
    intro b name hname
    refine volume_names_disjoint (hids b) (fun i hi j hj => ?_) hname
    cases b with
    | false => exact hapart.2 i hi j hj
    | true => exact (hapart.2 j hj i hi).symm
  have hexec : ∀ i c choice s r t, (∀ b, Named (sessions b) s) → Keeps (sessions (side i)) c →
      calls i c choice s = some (r, t) →
      (∀ b, Named (sessions b) t) ∧ Shows (sessions (side i)) c r := by
    intro i c choice s r t hnamed hkeeps hcall
    obtain ⟨rfl, rfl⟩ := Prod.mk.inj (Option.some.inj hcall)
    refine ⟨fun b => ?_, (hnamed _).shows c choice⟩
    by_cases hb : b = side i
    · subst hb
      exact (hnamed _).exec hkeeps
    · have hb' : b = !side i := by cases b <;> cases h : side i <;> simp_all
      subst hb'
      exact (hnamed _).exec_of_ne (hother _) hkeeps
  have hsound := run_sound hexec hinit
    (fun i => sound_program (hops i)) hrun
  refine hsound.mono fun s move t h => ⟨h.1, ?_⟩
  obtain ⟨-, hbefore, hafter, hkind, hresults⟩ := h
  refine ⟨fun handle hreturns => ?_, fun _ c k hcall => ?_⟩
  · have hof := hresults move.thread
    rw [hreturns] at hof
    have hhandle : HandleOf (sessions (side move.thread)) handle := hof handle rfl
    have hnamed := hafter !(side move.thread)
    refine ⟨?_, ?_, fun name hname => ?_⟩
    · rintro ⟨container, hmem, hname, hlabel⟩
      have hown := hnamed.containers container hmem hlabel
      rw [hname, hhandle.container] at hown
      exact hids _ (kernel_container_name_eq_iff.1 hown)
    · rintro ⟨volume, hmem, hname, hlabel⟩
      exact hvolumes _ _ hhandle.workspace (hname ▸ hnamed.volumes volume hmem hlabel)
    · rintro ⟨volume, hmem, hvolume, hlabel⟩
      exact hvolumes _ _ (hhandle.telemetry name hname) (hvolume ▸ hnamed.volumes volume hmem hlabel)
  · have hkeeps := hkind c k hcall
    have hnamed := (hbefore !(side move.thread)).without_exited move.choice.exited
    cases c with
    | remove_container name =>
      rintro ⟨container, hmem, hname, hlabel⟩
      have hown := hnamed.containers container hmem hlabel
      rw [hname, show name = _ from hkeeps] at hown
      exact hids _ (kernel_container_name_eq_iff.1 hown)
    | remove_volume name =>
      rintro ⟨volume, hmem, hname, hlabel⟩
      exact hvolumes _ _ hkeeps (hname ▸ hnamed.volumes volume hmem hlabel)
    | _ => trivial

end Apart

/-! ## Names that are shared -/

section Shared

variable {config : DockerRuntimeConfig} {sessions : Bool → Session}

/-- A request for a session on which nothing else is mounted. -/
def plain_request (x : Session) : RuntimeCreateSession where
  session_id := x.session_id
  telemetry_volume_identity := x.telemetry_volume_identity
  harness := .Echo
  interaction_mode := .Chat
  env := ∅
  skill_volumes := []
  workspace_mounts := []

/-- The session `true` is created by thread 1, while `false` is being destroyed. -/
def racing (sessions : Bool → Session) (i : ℕ) : Op :=
  if i = 1 then .create_session (plain_request (sessions true))
  else .destroy_session (sessions false).handle

def racing_side (i : ℕ) : Bool := decide (i = 1)

/-- The start of such a race. -/
def race (config : DockerRuntimeConfig) (sessions : Bool → Session) (init : Engine) : Runs :=
  ⟨init, fun i => (racing sessions i).program config⟩

/-- The volumes that are made for a session. -/
def workspace_volume (x : Session) : DockerVolumeResource :=
  Engine.volume_resource (session_workspace_volume_name x.session_id)
    ((session_workspace_labels (plain_request x)).insert LABEL_RESOURCE_ID quiet.id) quiet.id

@[inherit_doc workspace_volume]
def telemetry_volume (x : Session) (identity : Text) : DockerVolumeResource :=
  Engine.volume_resource (session_telemetry_volume_name identity)
    (session_telemetry_labels (plain_request x)) quiet.id

/-- No containers and no volumes. -/
def nothing : Engine := ⟨Table.empty, Table.empty⟩

/-- One volume. -/
def only (volume : DockerVolumeResource) : Engine := ⟨Table.empty, Table.empty.put volume⟩

/-- A destruction that removes what is the other session's. -/
theorem not_isolated_of_removal {init : Engine} {moves : List (Move ℕ Choice)} {u : Runs}
    {c : Call} {k : c.Answer → Prog Call Call.Answer (Except AgentHostError (Option DockerKernelSession))}
    (hinit : ∀ b, Named (sessions b) init)
    (hrun : Run (Advance calls) (race config sessions init) moves u) (hcall : u.rest 0 = .call c k)
    (hremoves : ¬RemovesNothingOf (u.state.without_exited quiet.exited) (sessions true).session_id c) :
    ¬Isolated config sessions := by
  intro hisolated
  have hlast : Advance calls u ⟨0, quiet⟩ _ := Advance.of_exec hcall rfl
  have hops : ∀ i, (racing sessions i).For (sessions (racing_side i)) := by
    intro i
    unfold racing racing_side
    by_cases hi : i = 1
    · rw [if_pos hi, decide_eq_true hi]
      exact ⟨rfl, rfl⟩
    · rw [if_neg hi, decide_eq_false hi]
      rfl
  have hguarded := hisolated racing_side (racing sessions) init _ _ hops hinit (hrun.snoc hlast)
  obtain ⟨u', hpre, hstep⟩ := hguarded.split
  have hdeterministic : ∀ (s : Runs) (move : Move ℕ Choice) (t t' : Runs), Advance calls s move t →
      Advance calls s move t' → t = t' := fun _ _ _ _ h h' => h.unique h'
  obtain rfl := Run.unique hdeterministic hrun hpre.of_guarded
  cases hstep with
  | cons hstep _ =>
    have hdestroys : (racing sessions 0).Destroys := trivial
    exact hremoves (hstep.2.removes hdestroys c k hcall)

/-- The two volumes of a session. -/
def both (x : Session) (identity : Text) : Engine :=
  ⟨Table.empty, (only (workspace_volume x)).volumes.put (telemetry_volume x identity)⟩

/-- What `destroy_session` has before it, once it has looked and seen nothing. -/
structure Removals (x : Session)
    (rest : Prog Call Call.Answer (Except AgentHostError (Option DockerKernelSession))) : Prop where
  removes : ∃ k k', rest = .call (.remove_container (kernel_container_name x.session_id)) k
    ∧ k (.ok ()) = .call (.remove_volume (session_workspace_volume_name x.session_id)) k'
    ∧ ∀ identity ∈ x.telemetry_volume_identity, ∃ k'',
      k' (.ok ()) = .call (.remove_volume (session_telemetry_volume_name identity)) k''

theorem follow_destroy_session (config : DockerRuntimeConfig) (x : Session) : ∃ choices rest,
    solo calls 0 choices (Op.program config (.destroy_session x.handle)) nothing
      = some (rest, nothing) ∧ Removals x rest := by
  rw [Session.handle]
  cases hidentity : x.telemetry_volume_identity with
  | none =>
    refine ⟨List.replicate 2 quiet, _, rfl, ⟨_, _, rfl, rfl, fun identity h => ?_⟩⟩
    rw [hidentity] at h
    cases h
  | some identity =>
    refine ⟨List.replicate 3 quiet, _, rfl, ⟨_, _, rfl, rfl, fun identity' h => ?_⟩⟩
    rw [hidentity] at h
    obtain rfl := Option.some.inj h
    exact ⟨_, rfl⟩

theorem fail_if_neg {condition : Prop} [Decidable condition] {error : AgentHostError}
    (h : ¬condition) : fail_if condition error = pure () := if_neg h

variable (x : Session)

theorem validate_workspace_volume (name : Text) :
    validate_session_resource_labels "Docker volume" name (workspace_volume x).labels
      "session-workspace" .Chat = pure () := by
  have hrole : is_managed_role (workspace_volume x).labels "session-workspace" = true := rfl
  have hmode : (workspace_volume x).labels[LABEL_INTERACTION_MODE]?
      = some InteractionMode.Chat.as_str.toList := by
    show ((session_workspace_labels (plain_request x)).insert LABEL_RESOURCE_ID quiet.id)[_]? = _
    rw [getElem?_insert_label, if_neg (by decide), session_workspace_labels, getElem?_btree_map]
    rfl
  refine fail_if_neg ?_
  simp only [hrole, hmode, not_true_eq_false, ne_eq, or_self, not_false_eq_true]

/-- Where there is nothing, the workspace volume is created. -/
theorem follow_ensure_session_workspace_volume : solo calls 1 (List.replicate 6 quiet)
    (ensure_session_workspace_volume (plain_request x)).run nothing
      = some (.ret (.ok (session_workspace_volume_name x.session_id)), only (workspace_volume x)) := by
  have hcreate : solo calls 1 (List.replicate 5 quiet)
      (ensure_session_workspace_volume (plain_request x)).run nothing
        = some (_, only (workspace_volume x)) := rfl
  have hget : (only (workspace_volume x)).volumes.get (session_workspace_volume_name x.session_id)
      = some (workspace_volume x) := Table.get_put_self Table.empty (workspace_volume x)
  have hinspect : calls 1 (.inspect_volume (session_workspace_volume_name x.session_id)) quiet
      (only (workspace_volume x)) = some (.ok (some (workspace_volume x)), only (workspace_volume x)) :=
    congrArg (fun found => some (Except.ok found, only (workspace_volume x))) hget
  have howner : ¬(workspace_volume x).labels[LABEL_SESSION_ID]? ≠ some x.session_id :=
    not_not.2 (label_workspace _)
  refine (solo_append hcreate).trans ?_
  refine (congrArg (fun answer : Option _ => answer.bind _) hinspect).trans ?_
  show some ((fail_if ((workspace_volume x).labels[LABEL_SESSION_ID]? ≠ some x.session_id) _
    >>= fun _ => validate_session_resource_labels _ _ (workspace_volume x).labels "session-workspace" .Chat
    >>= fun _ => pure _).run, _) = _
  rw [fail_if_neg howner, validate_workspace_volume]
  rfl

/-- Then the telemetry volume is. -/
theorem follow_ensure_session_telemetry_volume {identity : Text}
    (hidentity : x.telemetry_volume_identity = some identity) :
    ∃ rest, solo calls 1 (List.replicate 4 quiet)
      (ensure_session_telemetry_volume (plain_request x)).run (only (workspace_volume x))
        = some (rest, both x identity) := by
  have hplain : (plain_request x).telemetry_volume_identity = some identity := hidentity
  rw [ensure_session_telemetry_volume, hplain]
  exact ⟨_, rfl⟩

/-- The creation of a session, up to the creation of its workspace volume. -/
theorem follow_create_workspace (config : DockerRuntimeConfig) (x : Session) : ∃ choices rest,
    solo calls 1 choices (Op.program config (.create_session (plain_request x))) nothing
      = some (rest, only (workspace_volume x)) :=
  ⟨List.replicate 5 quiet, _, rfl⟩

/-- The creation of a session, up to the creation of its telemetry volume. -/
theorem follow_create_telemetry (config : DockerRuntimeConfig) (x : Session) {identity : Text}
    (hidentity : x.telemetry_volume_identity = some identity) : ∃ choices rest,
    solo calls 1 choices (Op.program config (.create_session (plain_request x))) nothing
      = some (rest, both x identity) := by
  obtain ⟨rest, htelemetry⟩ := follow_ensure_session_telemetry_volume x hidentity
  have hcreate : ∃ f f', (create_session config (plain_request x)).run
      = ((ensure_session_workspace_volume (plain_request x)).run >>= f)
      ∧ f (.ok (session_workspace_volume_name x.session_id))
        = ((ensure_session_telemetry_volume (plain_request x)).run >>= f') := ⟨_, _, rfl, rfl⟩
  have hprogram : ∃ g, Op.program config (.create_session (plain_request x))
      = ((create_session config (plain_request x)).run >>= g) := ⟨_, rfl⟩
  obtain ⟨f, f', hf, hf'⟩ := hcreate
  obtain ⟨g, hg⟩ := hprogram
  have hfollow : solo calls 1 (List.replicate 6 quiet ++ List.replicate 4 quiet)
      (create_session config (plain_request x)).run nothing = some (rest >>= f', both x identity) := by
    rw [hf]
    refine (solo_append (solo_bind f (follow_ensure_session_workspace_volume x))).trans ?_
    show solo calls 1 _ (f (.ok _)) _ = _
    rw [hf']
    exact solo_bind f' htelemetry
  exact ⟨_, _, hg ▸ solo_bind g hfollow⟩

/-- A thread that has looked, and a volume that is created then. -/
theorem race_of_solo {choices choices' : List Choice} {init s : Engine}
    {rest rest' : Prog Call Call.Answer (Except AgentHostError (Option DockerKernelSession))}
    (hlooked : solo calls 0 choices (Op.program config (.destroy_session (sessions false).handle)) init
      = some (rest, init))
    (hcreated : solo calls 1 choices' (Op.program config (.create_session (plain_request (sessions true))))
      init = some (rest', s)) :
    ∃ moves u, Run (Advance calls) (race config sessions init) moves u ∧ u.rest 0 = rest
      ∧ u.state = s := by
  have hfirst := run_of_solo (s := race config sessions init) rfl hlooked
  have hsecond := hfirst.append (run_of_solo rfl hcreated)
  exact ⟨_, _, hsecond, rfl, rfl⟩

/-- The next call of a thread, when nothing exits and nothing fails. -/
theorem next_call {s : Runs} {i : ℕ} {c : Call}
    {k : c.Answer → Prog Call Call.Answer (Except AgentHostError (Option DockerKernelSession))}
    (hrest : s.rest i = .call c k) :
    ∃ t, Advance calls s ⟨i, quiet⟩ t ∧ t.state = (Engine.exec c quiet s.state).2
      ∧ t.rest i = k (Engine.exec c quiet s.state).1 :=
  ⟨_, Advance.of_exec hrest rfl, rfl, Function.update_self i _ s.rest⟩

/-- Sessions that share a name get in each other's way: what one operation has looked for
and not seen is created by another one, and then removed. -/
theorem apart_of_isolated (hisolated : Isolated config sessions) :
    Apart (sessions false) (sessions true) := by
  have hinit : ∀ b, Named (sessions b) nothing :=
    fun b => ⟨fun _ h => (List.not_mem_nil h).elim, fun _ h => (List.not_mem_nil h).elim⟩
  obtain ⟨looks, rest, hlooked, k, k', rfl, hworkspace, htelemetry⟩ :=
    follow_destroy_session config (sessions false)
  refine ⟨fun hid => ?_, fun i hi j hj hij => ?_⟩
  · -- the workspace volume is created after the look, and removed
    obtain ⟨creates, rest', hcreated⟩ :=
      follow_create_workspace config (sessions true)
    obtain ⟨moves, u, hrun, hrest, hstate⟩ := race_of_solo hlooked hcreated
    obtain ⟨v, hcontainer, hstate', hrest'⟩ := next_call hrest
    refine not_isolated_of_removal hinit (hrun.snoc hcontainer) (hrest'.trans hworkspace)
      (fun hremoves => hremoves ?_) hisolated
    refine ⟨workspace_volume (sessions true), ?_, ?_, label_workspace _⟩
    · show workspace_volume (sessions true) ∈ v.state.volumes.rows
      rw [hstate', hstate]
      exact List.mem_singleton.2 rfl
    · exact congrArg ("agentspace-session-workspace-".toList ++ ·) hid.symm
  · -- so is the telemetry volume
    obtain ⟨creates, rest', hcreated⟩ :=
      follow_create_telemetry config (sessions true) hj
    obtain ⟨k'', htelemetry⟩ := htelemetry i hi
    obtain ⟨moves, u, hrun, hrest, hstate⟩ := race_of_solo hlooked hcreated
    obtain ⟨v, hcontainer, hstate', hrest'⟩ := next_call hrest
    obtain ⟨w, hvolume, hstate'', hrest''⟩ := next_call (hrest'.trans hworkspace)
    refine not_isolated_of_removal hinit ((hrun.snoc hcontainer).snoc hvolume)
      (hrest''.trans htelemetry) (fun hremoves => hremoves ?_) hisolated
    refine ⟨telemetry_volume (sessions true) j, ?_, ?_, label_telemetry⟩
    · show telemetry_volume (sessions true) j ∈ w.state.volumes.rows
      rw [hstate'', hstate', hstate]
      refine Table.mem_rows_retain.2 ⟨?_, decide_eq_true ?_⟩
      · exact Table.mem_rows_iff.2 (Table.get_put_self _ _)
      · exact (workspace_volume_name_ne_telemetry _ _).symm
    · exact congrArg ("agentspace-session-telemetry-".toList ++ ·) hij.symm

end Shared

/-- **Isolation.** Operations of two sessions respect each other in every interleaving if
and only if no name is shared: neither the ids nor the identities of the telemetry
volumes agree in their first twelve bytes. -/
theorem isolated_iff (config : DockerRuntimeConfig) (sessions : Bool → Session)
    (hne : (sessions false).session_id ≠ (sessions true).session_id) :
    Isolated config sessions ↔ Apart (sessions false) (sessions true) :=
  ⟨apart_of_isolated, isolated_of_apart hne⟩

/-- A runtime with the names that it has in the repository. -/
def sample_config : DockerRuntimeConfig where
  copilot_volume := "agentspace-kernel_copilot-config".toList
  skills_volume := "agentspace-skills".toList
  base_url_template := fun container_name => "http://".toList ++ container_name ++ ":8000".toList
  vscode_container_port := 8080
  free_port_container_port := 8081

/-- Two sessions that are opened in different milliseconds. -/
def strangers (b : Bool) : Session where
  session_id := (if b then "0190163d8694739b8c1e4f5a6b7c8d90" else "0190163d8695744a9d2f5061728394a5").toList
  telemetry_volume_identity := none

theorem strangers_are_isolated : Isolated sample_config strangers :=
  (isolated_iff sample_config strangers (by decide)).2
    ⟨by decide, fun _ h => (Option.not_mem_none _ h).elim⟩

/-- Two sessions that are opened in one millisecond. -/
def twins (b : Bool) : Session where
  session_id := (if b then "0190163d8694739b8c1e4f5a6b7c8d90" else "0190163d8694744a9d2f5061728394a5").toList
  telemetry_volume_identity := none

theorem twins_are_not_isolated :
    (twins false).session_id ≠ (twins true).session_id ∧ ¬Isolated sample_config twins :=
  ⟨by decide, fun hisolated => (apart_of_isolated hisolated).1 (by decide)⟩

end AgentSpace.Docker
