/-
What a dry run lists, and what its resubmission removes.

A dry run lists the orphans (`Orphan`) and nothing else; sent back as they are, those with
an id are removed, one after another, and none is in the way of another.
-/
import AgentSpace.Docker.Gate
import AgentSpace.Lib.Triple

set_option autoImplicit false

namespace AgentSpace.Docker

open Lib Operation

/-! ## Orphans -/

/-- The id and the labels of the resource of a kind that is under a name. -/
def Engine.resource (s : Engine) (kind : CleanupResourceKind) (name : Text) : Option (Text × Labels) :=
  match kind with
  | .KernelContainer => (s.containers.get name).map fun container => (container.resource_id, container.labels)
  | .SessionWorkspaceVolume | .SessionTelemetryVolume =>
    (s.volumes.get name).map fun volume => (volume.resource_id, volume.labels)

/-- The identity is that of a resource that is managed in the role of its kind, and owned
by no session. -/
def Orphan (s : Engine) (owned_session_ids : Finset Text) (identity : CleanupResourceIdentity) : Prop :=
  (∃ labels, s.resource identity.kind identity.name = some (identity.resource_id, labels)
    ∧ is_managed_role labels identity.kind.role = true
    ∧ labels[LABEL_SESSION_ID]? = identity.session_id)
  ∧ ∀ session_id ∈ identity.session_id, session_id ∉ owned_session_ids

/-- The resources that a dry run lists. -/
def listing (s : Engine) (owned_session_ids : Finset Text) : List CleanupResource :=
  (orphaned_containers owned_session_ids s.containers.rows).map listed_container
    ++ (orphaned_volumes "session-workspace" owned_session_ids s.volumes.rows).map
      (listed_volume .SessionWorkspaceVolume)
    ++ (orphaned_volumes "session-telemetry" owned_session_ids s.volumes.rows).map
      (listed_volume .SessionTelemetryVolume)

/-- Their identities. -/
def listed (s : Engine) (owned_session_ids : Finset Text) : List CleanupResourceIdentity :=
  (listing s owned_session_ids).map CleanupResource.identity

section Orphans

variable {s : Engine} {owned_session_ids : Finset Text} {identity : CleanupResourceIdentity}

variable {labels : Labels}

theorem resource_is_owned_eq_false_iff :
    resource_is_owned labels owned_session_ids = false
      ↔ ∀ session_id ∈ labels[LABEL_SESSION_ID]?, session_id ∉ owned_session_ids := by
  unfold resource_is_owned
  cases labels[LABEL_SESSION_ID]? with
  | none => simp
  | some session_id => simp

theorem mem_orphaned_containers {container : DockerContainerResource}
    {containers : List DockerContainerResource} :
    container ∈ orphaned_containers owned_session_ids containers ↔ container ∈ containers
      ∧ is_managed_role container.labels "kernel" = true
      ∧ ∀ session_id ∈ container.labels[LABEL_SESSION_ID]?, session_id ∉ owned_session_ids := by
  rw [orphaned_containers, List.mem_mergeSort, List.mem_filter, Bool.and_eq_true, Bool.not_eq_true',
    resource_is_owned_eq_false_iff]

theorem mem_orphaned_volumes {role : String} {volume : DockerVolumeResource}
    {volumes : List DockerVolumeResource} :
    volume ∈ orphaned_volumes role owned_session_ids volumes ↔ volume ∈ volumes
      ∧ is_managed_role volume.labels role = true
      ∧ ∀ session_id ∈ volume.labels[LABEL_SESSION_ID]?, session_id ∉ owned_session_ids := by
  rw [orphaned_volumes, List.mem_mergeSort, List.mem_filter, Bool.and_eq_true, Bool.not_eq_true',
    resource_is_owned_eq_false_iff]

/-- A volume of a kind is listed if and only if it is an orphan. -/
theorem listed_volume_iff {kind : CleanupResourceKind} (hkind : kind ≠ .KernelContainer) :
    (∃ volume ∈ orphaned_volumes kind.role owned_session_ids s.volumes.rows,
      (listed_volume kind volume).identity = identity)
      ↔ identity.kind = kind ∧ Orphan s owned_session_ids identity := by
  have hresource : ∀ name, s.resource kind name
      = (s.volumes.get name).map fun volume => (volume.resource_id, volume.labels) := by
    intro name
    cases kind with
    | KernelContainer => exact absurd rfl hkind
    | SessionWorkspaceVolume | SessionTelemetryVolume => rfl
  constructor
  · rintro ⟨volume, hmem, rfl⟩
    obtain ⟨hrow, hmanaged, hunowned⟩ := mem_orphaned_volumes.1 hmem
    refine ⟨rfl, ⟨volume.labels, ?_, hmanaged, rfl⟩, hunowned⟩
    show s.resource kind volume.name = _
    rw [hresource, Table.mem_rows_iff.1 hrow]
    rfl
  · rintro ⟨rfl, ⟨labels, hfound, hmanaged, hsession⟩, hunowned⟩
    rw [hresource] at hfound
    obtain ⟨volume, hget, heq⟩ := Option.map_eq_some_iff.1 hfound
    obtain ⟨hid, rfl⟩ := Prod.mk.inj heq
    obtain ⟨hrow, hname⟩ := Table.get_eq_some_iff.1 hget
    refine ⟨volume, mem_orphaned_volumes.2 ⟨hrow, hmanaged, ?_⟩, ?_⟩
    · rw [hsession]
      exact hunowned
    · show (⟨identity.kind, volume.name, volume.resource_id, volume.labels[LABEL_SESSION_ID]?⟩ :
        CleanupResourceIdentity) = identity
      rw [hname, hid, hsession]

theorem listed_container_iff : (∃ container ∈ orphaned_containers owned_session_ids s.containers.rows,
      (listed_container container).identity = identity)
      ↔ identity.kind = .KernelContainer ∧ Orphan s owned_session_ids identity := by
  constructor
  · rintro ⟨container, hmem, rfl⟩
    obtain ⟨hrow, hmanaged, hunowned⟩ := mem_orphaned_containers.1 hmem
    refine ⟨rfl, ⟨container.labels, ?_, hmanaged, rfl⟩, hunowned⟩
    show (s.containers.get container.name).map _ = _
    rw [Table.mem_rows_iff.1 hrow]
    rfl
  · rintro ⟨hkind, ⟨labels, hfound, hmanaged, hsession⟩, hunowned⟩
    rw [hkind] at hfound hmanaged
    obtain ⟨container, hget, heq⟩ := Option.map_eq_some_iff.1 hfound
    obtain ⟨hid, rfl⟩ := Prod.mk.inj heq
    obtain ⟨hrow, hname⟩ := Table.get_eq_some_iff.1 hget
    refine ⟨container, mem_orphaned_containers.2 ⟨hrow, hmanaged, ?_⟩, ?_⟩
    · rw [hsession]
      exact hunowned
    · show (⟨.KernelContainer, container.name, container.resource_id,
        container.labels[LABEL_SESSION_ID]?⟩ : CleanupResourceIdentity) = identity
      rw [hname, hid, hsession, ← hkind]

/-- **What is listed.** A dry run lists exactly the orphans. -/
theorem mem_listed : identity ∈ listed s owned_session_ids ↔ Orphan s owned_session_ids identity := by
  have hvolumes : ∀ kind ≠ .KernelContainer,
      identity ∈ ((orphaned_volumes kind.role owned_session_ids s.volumes.rows).map
        (listed_volume kind)).map CleanupResource.identity
        ↔ identity.kind = kind ∧ Orphan s owned_session_ids identity := by
    intro kind hkind
    rw [List.map_map, List.mem_map]
    exact listed_volume_iff hkind
  have hcontainers : identity ∈ ((orphaned_containers owned_session_ids s.containers.rows).map
      listed_container).map CleanupResource.identity
        ↔ identity.kind = .KernelContainer ∧ Orphan s owned_session_ids identity := by
    rw [List.map_map, List.mem_map]
    exact listed_container_iff
  have hworkspace := hvolumes .SessionWorkspaceVolume (by decide)
  have htelemetry := hvolumes .SessionTelemetryVolume (by decide)
  rw [listed, listing, List.map_append, List.map_append, List.mem_append, List.mem_append, hcontainers]
  constructor
  · rintro ((h | h) | h)
    · exact h.2
    · exact (hworkspace.1 h).2
    · exact (htelemetry.1 h).2
  · intro h
    cases hkind : identity.kind with
    | KernelContainer => exact Or.inl (Or.inl ⟨rfl, h⟩)
    | SessionWorkspaceVolume => exact Or.inl (Or.inr (hworkspace.2 ⟨hkind, h⟩))
    | SessionTelemetryVolume => exact Or.inr (htelemetry.2 ⟨hkind, h⟩)

theorem nodup_listed : (listed s owned_session_ids).Nodup := by
  have hcontainers : ((orphaned_containers owned_session_ids s.containers.rows).map
      fun container => (listed_container container).identity).Nodup := by
    have hnames : ((orphaned_containers owned_session_ids s.containers.rows).map
        DockerContainerResource.name).Nodup :=
      ((List.mergeSort_perm _ _).map _).nodup_iff.2 ((List.filter_sublist.map _).nodup s.containers.nodup)
    refine List.Nodup.of_map CleanupResourceIdentity.name ?_
    rw [List.map_map]
    exact hnames
  have hvolumes : ∀ kind : CleanupResourceKind,
      ((orphaned_volumes kind.role owned_session_ids s.volumes.rows).map
        fun volume => (listed_volume kind volume).identity).Nodup := by
    intro kind
    have hnames : ((orphaned_volumes kind.role owned_session_ids s.volumes.rows).map
        DockerVolumeResource.name).Nodup :=
      ((List.mergeSort_perm _ _).map _).nodup_iff.2 ((List.filter_sublist.map _).nodup s.volumes.nodup)
    refine List.Nodup.of_map CleanupResourceIdentity.name ?_
    rw [List.map_map]
    exact hnames
  have hkinds : ∀ {α β : Type} {f : α → CleanupResourceIdentity} {g : β → CleanupResourceIdentity}
      {k k' : CleanupResourceKind} {l : List α} {l' : List β}, k ≠ k' → (∀ a, (f a).kind = k) →
      (∀ b, (g b).kind = k') → ∀ x ∈ l.map f, ∀ y ∈ l'.map g, x ≠ y := by
    intro α β f g k k' l l' hne hf hg x hx y hy hxy
    obtain ⟨a, -, rfl⟩ := List.mem_map.1 hx
    obtain ⟨b, -, rfl⟩ := List.mem_map.1 hy
    exact hne ((hf a).symm.trans ((congrArg _ hxy).trans (hg b)))
  rw [listed, listing, List.map_append, List.map_append, List.map_map, List.map_map, List.map_map]
  refine List.nodup_append.2 ⟨List.nodup_append.2 ⟨hcontainers, hvolumes .SessionWorkspaceVolume, ?_⟩,
    hvolumes .SessionTelemetryVolume, ?_⟩
  · exact hkinds (by decide : CleanupResourceKind.KernelContainer ≠ .SessionWorkspaceVolume)
      (fun _ => rfl) fun _ => rfl
  · intro x hx y hy
    rcases List.mem_append.1 hx with hx | hx
    · exact hkinds (by decide : CleanupResourceKind.KernelContainer ≠ .SessionTelemetryVolume)
        (fun _ => rfl) (fun _ => rfl) x hx y hy
    · exact hkinds (by decide : CleanupResourceKind.SessionWorkspaceVolume ≠ .SessionTelemetryVolume)
        (fun _ => rfl) (fun _ => rfl) x hx y hy

/-! ## The dry run -/

variable {β : Type} {c : Call}

/-- A call that an operation has got past. -/
theorem solo_call {f : c.Value → Operation β} {choices : List Choice} {s t : Engine} {b : β}
    (h : solo calls () choices (call c >>= f).run s = some (.ret (.ok b), t)) :
    ∃ choice rest value, choices = choice :: rest ∧ (Engine.exec c choice s).1 = .ok value
      ∧ solo calls () rest (f value).run (Engine.exec c choice s).2 = some (.ret (.ok b), t) := by
  cases choices with
  | nil =>
    obtain ⟨hrest, -⟩ := Prod.mk.inj (Option.some.inj h)
    cases hrest
  | cons choice rest =>
    have hstep : solo calls () rest
        ((ExceptT.bindCont f (Engine.exec c choice s).1 : Prog Call Call.Answer _))
        (Engine.exec c choice s).2 = some (.ret (.ok b), t) := h
    cases hanswer : (Engine.exec c choice s).1 with
    | ok value =>
      rw [hanswer] at hstep
      exact ⟨choice, rest, value, rfl, hanswer, hstep⟩
    | error e =>
      rw [hanswer] at hstep
      cases rest with
      | nil =>
        obtain ⟨hret, -⟩ := Prod.mk.inj (Option.some.inj hstep)
        cases hret
      | cons choice' rest => cases hstep

variable {choice : Choice}

theorem containers_of_list {containers : List DockerContainerResource}
    (h : (Engine.exec .list_containers choice s).1 = .ok containers) :
    containers = (s.without_exited choice.exited).containers.rows := by
  unfold Engine.exec at h
  cases hfails : choice.fails with
  | some detail =>
    rw [hfails] at h
    cases h
  | none =>
    rw [hfails] at h
    exact (Except.ok.inj h).symm

theorem volumes_of_list {volumes : List DockerVolumeResource}
    (h : (Engine.exec .list_volumes choice s).1 = .ok volumes) : volumes = s.volumes.rows := by
  unfold Engine.exec at h
  cases hfails : choice.fails with
  | some detail =>
    rw [hfails] at h
    cases h
  | none =>
    rw [hfails] at h
    exact (Except.ok.inj h).symm

theorem exec_of_list (hc : c = .list_containers ∨ c = .list_volumes) :
    (Engine.exec c choice s).2 = s.without_exited choice.exited := by
  unfold Engine.exec
  rcases hc with rfl | rfl
  · cases choice.fails <;> rfl
  · cases choice.fails <;> rfl

variable {t : Engine}

/-- **A dry run.** Whenever it returns, it has listed exactly the orphans that there were
when it began and that had not exited by its first look, and it has removed nothing. -/
theorem dry_run_lists {reviewed : Option (List CleanupResourceIdentity)} {choices : List Choice}
    {report : CleanupReport}
    (h : solo calls () choices (cleanup_orphans owned_session_ids true reviewed).run s
      = some (.ret (.ok report), t)) :
    ∃ first second third, choices = [first, second, third]
      ∧ report.resources.map CleanupResource.identity
        = listed (s.without_exited first.exited) owned_session_ids
      ∧ (∀ resource ∈ report.resources, resource.action = .WouldDelete)
      ∧ t = ((s.without_exited first.exited).without_exited second.exited).without_exited
        third.exited := by
  obtain ⟨first, rest, containers, rfl, hcontainers, h⟩ := solo_call h
  obtain ⟨second, rest, volumes, rfl, hvolumes, h⟩ := solo_call h
  obtain ⟨third, rest, telemetry_volumes, rfl, htelemetry, h⟩ := solo_call h
  rw [exec_of_list (Or.inl rfl)] at hvolumes htelemetry h
  rw [exec_of_list (Or.inr rfl)] at htelemetry h
  rw [exec_of_list (Or.inr rfl)] at h
  obtain rfl := containers_of_list hcontainers
  obtain rfl := volumes_of_list hvolumes
  obtain rfl := volumes_of_list htelemetry
  cases rest with
  | cons choice rest => cases h
  | nil =>
    obtain ⟨hreport, ht⟩ := Prod.mk.inj (Option.some.inj h)
    obtain rfl := Except.ok.inj (Prog.ret.inj hreport)
    refine ⟨first, second, third, rfl, rfl, fun resource hmem => ?_, ht.symm⟩
    rcases List.mem_append.1 hmem with hmem | hmem
    · rcases List.mem_append.1 hmem with hmem | hmem
      · obtain ⟨container, -, rfl⟩ := List.mem_map.1 hmem
        rfl
      · obtain ⟨volume, -, rfl⟩ := List.mem_map.1 hmem
        rfl
    · obtain ⟨volume, -, rfl⟩ := List.mem_map.1 hmem
      rfl

/-! ## The resubmission -/

/-- A call in which nothing exits and nothing fails. -/
def calm (c : Call) (s : Engine) : c.Answer × Engine := Engine.exec c quiet s

/-- What is left of Docker once an identity with an id is removed. -/
def Engine.without (s : Engine) (identity : CleanupResourceIdentity) : Engine :=
  if identity.resource_id = [] then s
  else match identity.kind with
    | .KernelContainer => { s with containers := s.containers.retain fun name => name ≠ identity.name }
    | .SessionWorkspaceVolume | .SessionTelemetryVolume =>
      { s with volumes := s.volumes.retain fun name => name ≠ identity.name }

theorem run_bind_ok {α β : Type} {p : Operation α} {f : α → Operation β} {a : α}
    (h : p.run.run calm s = (.ok a, t)) : (p >>= f).run.run calm s = (f a).run.run calm t := by
  refine (Fallible.run_bind calm p.run f s).trans ?_
  rw [h]

theorem run_call {f : c.Value → Operation β} {value : c.Value} (h : s.answer quiet c = (.ok value, t)) :
    (call c >>= f).run.run calm s = (f value).run.run calm t := by
  refine run_bind_ok ((Prog.run_lift calm c s).trans ?_)
  rw [calm, exec_quiet, h]

/-- The run of an attempt. -/
theorem run_attempt {operation : Operation Unit}
    {f : Except AgentHostError Unit → Operation β} {result : Except AgentHostError Unit}
    (hc : operation.run.run calm s = (result, t)) :
    (attempt operation >>= f).run.run calm s = (f result).run.run calm t := by
  refine run_bind_ok ((Prog.run_bind calm operation.run _ s).trans ?_)
  rw [hc]
  rfl

/-- What passes the comparison, and what does not. -/
theorem validate_reviewed_resource_of {expected_role : String}
    (hmanaged : is_managed_role labels expected_role = true)
    (hsession : labels[LABEL_SESSION_ID]? = identity.session_id) :
    validate_reviewed_resource identity.resource_id labels identity expected_role
      = if identity.resource_id = [] then .error (.changed_after_review identity.name) else .ok () := by
  unfold validate_reviewed_resource
  by_cases hempty : identity.resource_id = []
  · rw [if_pos (Or.inl hempty), if_pos hempty]
  · rw [if_neg hempty, if_neg]
    rintro (h | h | h | h)
    · exact hempty h
    · exact h rfl
    · exact h hmanaged
    · exact h hsession

/-- What the report says of a resource that is an orphan. -/
structure Reported (identity : CleanupResourceIdentity) (resource : CleanupResource) : Prop where
  same : resource.identity = identity
  action : resource.action = if identity.resource_id = [] then .DeleteFailed else .Deleted

/-- A removal after a comparison, and the report of it. -/
theorem run_and_then (status : Option Text) {removal : Operation Unit} {result : Except AgentHostError Unit}
    (hresult : result = if identity.resource_id = [] then .error (.changed_after_review identity.name)
      else .ok ()) (hremoval : removal.run.run calm s = (.ok (), t))
    (hsession : labels[LABEL_SESSION_ID]? = identity.session_id) :
    ∃ resource, (and_then result removal >>= fun result => pure (cleanup_resource identity.kind
        identity.name identity.resource_id labels status false result)).run.run calm s
        = (.ok resource, if identity.resource_id = [] then s else t) ∧ Reported identity resource := by
  have hidentity : ∀ result : Except AgentHostError Unit, (cleanup_resource identity.kind identity.name
      identity.resource_id labels status false result).identity = identity := by
    intro result
    show (⟨identity.kind, identity.name, identity.resource_id, labels[LABEL_SESSION_ID]?⟩ :
      CleanupResourceIdentity) = identity
    rw [hsession]
  by_cases hempty : identity.resource_id = []
  · rw [if_pos hempty] at hresult ⊢
    rw [hresult]
    exact ⟨_, rfl, hidentity _, (if_pos hempty).symm⟩
  · rw [if_neg hempty] at hresult ⊢
    rw [hresult]
    exact ⟨_, run_attempt hremoval, hidentity _, (if_neg hempty).symm⟩

/-- **One orphan.** It is removed if and only if it has an id, and the report says so. -/
theorem run_delete_reviewed_orphan (h : Orphan s owned_session_ids identity) :
    ∃ resource, (delete_reviewed_orphan owned_session_ids identity).run.run calm s
        = (.ok resource, s.without identity) ∧ Reported identity resource := by
  obtain ⟨⟨labels, hfound, hmanaged, hsession⟩, hunowned⟩ := h
  have hnot : ¬∃ session_id ∈ identity.session_id, session_id ∈ owned_session_ids := by
    rintro ⟨session_id, hmem, hin⟩
    exact hunowned session_id hmem hin
  have hvalid := validate_reviewed_resource_of hmanaged hsession
  unfold delete_reviewed_orphan
  rw [if_neg hnot]
  have hvolume : identity.kind ≠ .KernelContainer → ∃ resource, (do
        let current ← call (.inspect_volume identity.name)
        let result ← and_then (validate_reviewed_volume current identity identity.kind)
          (call (.remove_volume identity.name))
        pure (cleanup_resource identity.kind identity.name identity.resource_id
          ((current.map DockerVolumeResource.labels).getD ∅) none false result)
          : Operation CleanupResource).run.run calm s
        = (.ok resource, s.without identity) ∧ Reported identity resource := by
    intro hkind
    have hfound' : (s.volumes.get identity.name).map (fun volume => (volume.resource_id, volume.labels))
        = some (identity.resource_id, labels) := by
      rw [← hfound]
      cases hk : identity.kind with
      | KernelContainer => exact absurd hk hkind
      | SessionWorkspaceVolume | SessionTelemetryVolume => rfl
    obtain ⟨volume, hget, heq⟩ := Option.map_eq_some_iff.1 hfound'
    obtain ⟨hid, rfl⟩ := Prod.mk.inj heq
    have hresult : validate_reviewed_volume (some volume) identity identity.kind
        = if identity.resource_id = [] then .error (.changed_after_review identity.name) else .ok () := by
      rw [← hvalid, ← hid]
      cases hk : identity.kind with
      | KernelContainer => exact absurd hk hkind
      | SessionWorkspaceVolume | SessionTelemetryVolume => rfl
    have hremoval : (call (.remove_volume identity.name)).run.run calm s
        = (.ok (), { s with volumes := s.volumes.retain fun name => name ≠ identity.name }) := by
      refine (Prog.run_lift calm _ s).trans ?_
      rw [calm, exec_quiet]
      rfl
    obtain ⟨resource, hrun, hreported⟩ := run_and_then none hresult hremoval hsession
    refine ⟨resource, (run_call (congrArg (fun found => (Except.ok found, s)) hget)).trans ?_, hreported⟩
    refine hrun.trans (congrArg (Prod.mk _) ?_)
    unfold Engine.without
    cases hk : identity.kind with
    | KernelContainer => exact absurd hk hkind
    | SessionWorkspaceVolume | SessionTelemetryVolume => rfl
  cases hkind : identity.kind with
  | SessionWorkspaceVolume | SessionTelemetryVolume =>
    rw [hkind] at hvolume
    exact hvolume (by decide)
  | KernelContainer =>
    rw [hkind] at hfound hvalid
    obtain ⟨container, hget, heq⟩ := Option.map_eq_some_iff.1 hfound
    obtain ⟨hid, rfl⟩ := Prod.mk.inj heq
    have hresult : validate_reviewed_container (some container) identity
        = if identity.resource_id = [] then .error (.changed_after_review identity.name) else .ok () := by
      rw [← hvalid, ← hid]
      rfl
    have hremoval : (call (.remove_container identity.name)).run.run calm s
        = (.ok (), { s with containers := s.containers.retain fun name => name ≠ identity.name }) := by
      refine (Prog.run_lift calm _ s).trans ?_
      rw [calm, exec_quiet]
      rfl
    obtain ⟨resource, hrun, hreported⟩ := run_and_then (some container.status) hresult hremoval
      hsession
    refine ⟨resource, (run_call (congrArg (fun found => (Except.ok found, s)) hget)).trans ?_, hreported⟩
    rw [hkind] at hrun
    refine hrun.trans (congrArg (Prod.mk _) ?_)
    unfold Engine.without
    rw [hkind]

/-! ## One after another -/

/-- What is under a name of another resource is left. -/
theorem resource_without {a : CleanupResourceIdentity} {kind : CleanupResourceKind} {name : Text}
    (h : (a.kind = .KernelContainer ↔ kind = .KernelContainer) → name ≠ a.name) :
    (s.without a).resource kind name = s.resource kind name := by
  unfold Engine.without
  by_cases hempty : a.resource_id = []
  · rw [if_pos hempty]
  · rw [if_neg hempty]
    have hget : ∀ {α : Type} {key : α → Text} (rows : Table key), name ≠ a.name →
        (rows.retain fun n => decide (n ≠ a.name)).get name = rows.get name := by
      intro α key rows hne
      rw [Table.get_retain, if_pos (decide_eq_true hne)]
    cases ha : a.kind with
    | KernelContainer =>
      cases kind with
      | KernelContainer =>
        show ((s.containers.retain _).get name).map _ = _
        rw [hget s.containers (h (by rw [ha]))]
        rfl
      | SessionWorkspaceVolume | SessionTelemetryVolume => rfl
    | SessionWorkspaceVolume | SessionTelemetryVolume =>
      cases kind with
      | KernelContainer => rfl
      | SessionWorkspaceVolume | SessionTelemetryVolume =>
        show ((s.volumes.retain _).get name).map _ = _
        rw [hget s.volumes (h (by simp [ha]))]
        rfl

/-- Two orphans under one name are one. -/
theorem eq_of_orphans {a b : CleanupResourceIdentity} (ha : Orphan s owned_session_ids a)
    (hb : Orphan s owned_session_ids b)
    (hkind : a.kind = .KernelContainer ↔ b.kind = .KernelContainer) (hname : b.name = a.name) : a = b := by
  obtain ⟨⟨labels, hfound, hmanaged, hsession⟩, -⟩ := ha
  obtain ⟨⟨labels', hfound', hmanaged', hsession'⟩, -⟩ := hb
  have hresource : s.resource a.kind a.name = s.resource b.kind b.name := by
    rw [hname]
    cases hka : a.kind with
    | KernelContainer => rw [hkind.1 hka]
    | SessionWorkspaceVolume | SessionTelemetryVolume =>
      cases hkb : b.kind with
      | KernelContainer =>
        rw [hkind.2 hkb] at hka
        cases hka
      | SessionWorkspaceVolume | SessionTelemetryVolume => rfl
  obtain ⟨hid, rfl⟩ := Prod.mk.inj (Option.some.inj (hfound.symm.trans (hresource.trans hfound')))
  have hroles : a.kind.role.toList = b.kind.role.toList := by
    rw [is_managed_role, Bool.and_eq_true, decide_eq_true_eq, decide_eq_true_eq] at hmanaged hmanaged'
    exact Option.some.inj (hmanaged.2.symm.trans hmanaged'.2)
  have hkinds : a.kind = b.kind := by
    revert hroles
    cases a.kind <;> cases b.kind <;> decide
  cases a
  cases b
  simp only [CleanupResourceIdentity.mk.injEq]
  exact ⟨hkinds, hname.symm, hid, hsession.symm.trans hsession'⟩

theorem Orphan.without {a b : CleanupResourceIdentity} (ha : Orphan s owned_session_ids a)
    (hb : Orphan s owned_session_ids b) (hne : a ≠ b) : Orphan (s.without a) owned_session_ids b := by
  have hresource : (s.without a).resource b.kind b.name = s.resource b.kind b.name :=
    resource_without fun hkind hname => hne (eq_of_orphans ha hb hkind hname)
  obtain ⟨⟨labels, hfound, hmanaged, hsession⟩, hunowned⟩ := hb
  exact ⟨⟨labels, hresource.trans hfound, hmanaged, hsession⟩, hunowned⟩

variable {identities : List CleanupResourceIdentity}

/-- **All of them.** Each is removed and reported for itself. -/
theorem run_delete_each (hnodup : identities.Nodup)
    (horphans : ∀ identity ∈ identities, Orphan s owned_session_ids identity) :
    ∃ resources, (delete_each owned_session_ids identities).run.run calm s
        = (.ok resources, identities.foldl Engine.without s)
      ∧ List.Forall₂ Reported identities resources := by
  induction identities generalizing s with
  | nil => exact ⟨[], rfl, .nil⟩
  | cons identity identities ih =>
    obtain ⟨hnew, hnodup⟩ := List.nodup_cons.1 hnodup
    have hfirst := horphans identity List.mem_cons_self
    obtain ⟨resource, hrun, hreported⟩ := run_delete_reviewed_orphan hfirst
    have hrest : ∀ other ∈ identities, Orphan (s.without identity) owned_session_ids other :=
      fun other hother => hfirst.without (horphans other (List.mem_cons_of_mem _ hother))
        fun heq => hnew (heq ▸ hother)
    obtain ⟨resources, hruns, hreports⟩ := ih hnodup hrest
    refine ⟨resource :: resources, ?_, .cons hreported hreports⟩
    exact (run_bind_ok hrun).trans ((run_bind_ok hruns).trans rfl)

/-- What is left of the containers. -/
theorem mem_containers_foldl_without {container : DockerContainerResource} :
    container ∈ (identities.foldl Engine.without s).containers.rows ↔ container ∈ s.containers.rows
      ∧ ¬∃ identity ∈ identities, identity.kind = .KernelContainer ∧ identity.name = container.name
        ∧ identity.resource_id ≠ [] := by
  induction identities generalizing s with
  | nil => simp
  | cons identity identities ih =>
    have hone : container ∈ (s.without identity).containers.rows ↔ container ∈ s.containers.rows
        ∧ ¬(identity.kind = .KernelContainer ∧ identity.name = container.name
          ∧ identity.resource_id ≠ []) := by
      unfold Engine.without
      by_cases hempty : identity.resource_id = []
      · rw [if_pos hempty]
        simp [hempty]
      · rw [if_neg hempty]
        cases hkind : identity.kind with
        | KernelContainer =>
          show container ∈ (s.containers.retain _).rows ↔ _
          rw [Table.mem_rows_retain, decide_eq_true_eq]
          simp [hempty, eq_comm]
        | SessionWorkspaceVolume | SessionTelemetryVolume => simp
    rw [List.foldl_cons, ih, hone]
    simp only [List.exists_mem_cons_iff, not_or, and_assoc]

/-- What is left of the volumes. -/
theorem mem_volumes_foldl_without {volume : DockerVolumeResource} :
    volume ∈ (identities.foldl Engine.without s).volumes.rows ↔ volume ∈ s.volumes.rows
      ∧ ¬∃ identity ∈ identities, identity.kind ≠ .KernelContainer ∧ identity.name = volume.name
        ∧ identity.resource_id ≠ [] := by
  induction identities generalizing s with
  | nil => simp
  | cons identity identities ih =>
    have hone : volume ∈ (s.without identity).volumes.rows ↔ volume ∈ s.volumes.rows
        ∧ ¬(identity.kind ≠ .KernelContainer ∧ identity.name = volume.name
          ∧ identity.resource_id ≠ []) := by
      unfold Engine.without
      by_cases hempty : identity.resource_id = []
      · rw [if_pos hempty]
        simp [hempty]
      · rw [if_neg hempty]
        cases hkind : identity.kind with
        | KernelContainer => simp
        | SessionWorkspaceVolume | SessionTelemetryVolume =>
          show volume ∈ (s.volumes.retain _).rows ↔ _
          rw [Table.mem_rows_retain, decide_eq_true_eq]
          simp [hempty, eq_comm]
    rw [List.foldl_cons, ih, hone]
    simp only [List.exists_mem_cons_iff, not_or, and_assoc]

theorem perm_btree_set (h : identities.Nodup) : (btree_set identities).Perm identities := by
  rw [btree_set, h.dedup]
  exact List.mergeSort_perm _ _

/-- **A resubmission.** Each orphan with an id is removed, nothing else is, and the report
says so. -/
theorem run_resubmission (s : Engine) (owned_session_ids : Finset Text) :
    ∃ report, (cleanup_orphans owned_session_ids false (some (listed s owned_session_ids))).run.run calm s
        = (.ok report, (btree_set (listed s owned_session_ids)).foldl Engine.without s)
      ∧ List.Forall₂ Reported (btree_set (listed s owned_session_ids)) report.resources := by
  have hperm : (btree_set (listed s owned_session_ids)).Perm (listed s owned_session_ids) :=
    perm_btree_set nodup_listed
  obtain ⟨resources, hrun, hreports⟩ := run_delete_each (hperm.nodup_iff.2 nodup_listed)
    fun identity hmem => mem_listed.1 (hperm.mem_iff.1 hmem)
  have hlength : ¬(btree_set (listed s owned_session_ids)).length
      ≠ (listed s owned_session_ids).length := not_not.2 hperm.length_eq
  refine ⟨cleanup_report false owned_session_ids resources, ?_, hreports⟩
  have hpass : (fail_if ((btree_set (listed s owned_session_ids)).length
      ≠ (listed s owned_session_ids).length) .duplicate_reviewed_resources).run.run calm s
        = (.ok (), s) := by
    unfold fail_if
    rw [if_neg hlength]
    rfl
  show (delete_reviewed_orphans owned_session_ids (listed s owned_session_ids)).run.run calm s = _
  exact (run_bind_ok hpass).trans ((run_bind_ok hrun).trans rfl)

/-- **A dry run**, when nothing exits and nothing fails. -/
theorem run_dry_run (s : Engine) (owned_session_ids : Finset Text) :
    (cleanup_orphans owned_session_ids true none).run.run calm s
      = (.ok (cleanup_report true owned_session_ids (listing s owned_session_ids)), s) := by
  have hcontainers : s.answer quiet .list_containers = (.ok s.containers.rows, s) := rfl
  have hvolumes : s.answer quiet .list_volumes = (.ok s.volumes.rows, s) := rfl
  refine (run_call hcontainers).trans ?_
  refine (run_call hvolumes).trans ?_
  exact (run_call hvolumes).trans rfl

theorem map_identity_of_reported
    {resources : List CleanupResource} (h : List.Forall₂ Reported identities resources) :
    resources.map CleanupResource.identity = identities := by
  induction h with
  | nil => rfl
  | cons hreported _ ih => rw [List.map_cons, hreported.same, ih]

theorem action_of_reported
    {resources : List CleanupResource} (h : List.Forall₂ Reported identities resources)
    {resource : CleanupResource} (hmem : resource ∈ resources) :
    resource.action = if resource.resource_id = [] then .DeleteFailed else .Deleted := by
  induction h with
  | nil => cases hmem
  | cons hreported _ ih =>
    rcases List.mem_cons.1 hmem with rfl | hmem
    · rw [hreported.action, ← hreported.same]
      rfl
    · exact ih hmem

end Orphans

/-! ## Safety and completeness -/

end AgentSpace.Docker
