/-
The names of independent sessions.

The id of a session is a UUIDv7, whose first twelve digits are the millisecond it was made
in. Names are made of these digits, so a new session collides with the existing ones of its
millisecond (`never_collides_iff`).
-/
import AgentSpace.Docker.Isolation

set_option autoImplicit false

namespace AgentSpace.Docker

open Lib Operation

/-! ## Ids -/

def hex_digits : Text := "0123456789abcdef".toList

/-- `Uuid::now_v7().simple()`. -/
@[ext]
structure SessionId where
  text : Text
  length : text.length = 32
  digits : ∀ c ∈ text, c ∈ hex_digits
  version : text[12]? = some '7'
  variant : ∃ c ∈ "89ab".toList, text[16]? = some c

theorem utf8Size_of_mem_hex_digits {c : Char} (h : c ∈ hex_digits) : c.utf8Size = 1 := by
  have hsizes : hex_digits.map Char.utf8Size = List.replicate 16 1 := rfl
  exact (List.eq_replicate_iff.1 hsizes).2 _ (List.mem_map_of_mem h)

theorem digits_of_all {text : Text} (h : text.all (fun c => hex_digits.contains c) = true) :
    ∀ c ∈ text, c ∈ hex_digits :=
  fun c hc => List.contains_iff_mem.1 (List.all_eq_true.1 h c hc)

theorem get_to_eq_take {count : ℕ} {value : Text} (hsize : ∀ c ∈ value, c.utf8Size = 1)
    (hlength : count ≤ value.length) : get_to count value = some (value.take count) := by
  induction count generalizing value with
  | zero => rw [get_to, List.take_zero]
  | succ count ih =>
    cases value with
    | nil => cases hlength
    | cons c value =>
      have hc : c.utf8Size = 1 := hsize c List.mem_cons_self
      have hrest := ih (fun d hd => hsize d (List.mem_cons_of_mem _ hd)) (Nat.le_of_succ_le_succ hlength)
      rw [get_to, hc, if_pos (Nat.succ_le_succ (Nat.zero_le count)), Nat.add_sub_cancel, hrest]
      · rfl
      · exact Nat.succ_ne_zero count

namespace SessionId

variable (id : SessionId)

/-- The digits of the timestamp, least significant first. -/
def timestamp_digits : List ℕ := ((id.text.take 12).map fun c => hex_digits.idxOf c).reverse

/-- The millisecond of an id: its first 48 bits. -/
def timestamp_ms : ℕ := Nat.ofDigits 16 id.timestamp_digits

theorem first_n_text : first_n id.text 12 = id.text.take 12 := by
  have hlength : 12 ≤ id.text.length := by
    rw [id.length]
    decide
  rw [first_n, get_to_eq_take (fun c hc => utf8Size_of_mem_hex_digits (id.digits c hc)) hlength]
  rfl

theorem length_timestamp_digits : id.timestamp_digits.length = 12 := by
  rw [timestamp_digits, List.length_reverse, List.length_map, List.length_take, id.length]
  decide

theorem timestamp_digits_lt {d : ℕ} (h : d ∈ id.timestamp_digits) : d < 16 := by
  obtain ⟨c, hc, rfl⟩ := List.mem_map.1 (List.mem_reverse.1 h)
  exact List.idxOf_lt_length_of_mem (id.digits c (List.mem_of_mem_take hc))

theorem characters_timestamp_digits :
    id.timestamp_digits.reverse.map (fun d => hex_digits.getD d '0') = id.text.take 12 := by
  rw [timestamp_digits, List.reverse_reverse, List.map_map]
  refine (List.map_congr_left fun c hc => ?_).trans (List.map_id _)
  have hmem := id.digits c (List.mem_of_mem_take hc)
  show hex_digits.getD (hex_digits.idxOf c) '0' = c
  rw [List.getD_eq_getElem?_getD, List.getElem?_idxOf hmem]
  rfl

/-- **Names are timestamps.** Two ids share the digits that names are made of if and only
if they were made in one millisecond. -/
theorem first_n_eq_iff (i j : SessionId) :
    first_n i.text 12 = first_n j.text 12 ↔ i.timestamp_ms = j.timestamp_ms := by
  rw [first_n_text, first_n_text]
  constructor
  · intro h
    rw [timestamp_ms, timestamp_ms, timestamp_digits, timestamp_digits, h]
  · intro h
    have hdigits : i.timestamp_digits = j.timestamp_digits :=
      Nat.ofDigits_inj_of_len_eq (by decide)
        (i.length_timestamp_digits.trans j.length_timestamp_digits.symm)
        (fun _ => i.timestamp_digits_lt) (fun _ => j.timestamp_digits_lt) h
    rw [← i.characters_timestamp_digits, hdigits, j.characters_timestamp_digits]

end SessionId

/-! ## What existing sessions leave in Docker -/

/-- The session of an id, with the telemetry volume that it has in a terminal. -/
def SessionId.session (id : SessionId) : Session := ⟨id.text, some id.text⟩

/-- The volume is the session's, and is named after it. -/
def VolumeIs (id : SessionId) (volume : DockerVolumeResource) : Prop :=
  volume.labels[LABEL_SESSION_ID]? = some id.text ∧ volume.name ∈ id.session.volume_names

/-- The container is the session's, and is named after it. -/
def ContainerIs (id : SessionId) (container : DockerContainerResource) : Prop :=
  container.labels[LABEL_SESSION_ID]? = some id.text
    ∧ container.name = kernel_container_name id.text

/-- A Docker with these sessions: each has its workspace volume, and what has the label
or the name of a session is one of them's. -/
structure Hosts (ids : List SessionId) (s : Engine) : Prop where
  workspaces : ∀ id ∈ ids, ∃ volume ∈ s.volumes.rows,
    volume.labels[LABEL_SESSION_ID]? = some id.text
      ∧ volume.name = session_workspace_volume_name id.text
  labelled : ∀ volume ∈ s.volumes.rows, ∀ label, volume.labels[LABEL_SESSION_ID]? = some label →
    ∃ id ∈ ids, VolumeIs id volume
  named : ∀ volume ∈ s.volumes.rows, ∀ id : SessionId, volume.name ∈ id.session.volume_names →
    ∃ id ∈ ids, VolumeIs id volume
  containers : ∀ container ∈ s.containers.rows, ∀ id : SessionId,
    container.name = kernel_container_name id.text → ∃ id ∈ ids, ContainerIs id container

/-- What is named after the session has its label. -/
structure Clear (x : Session) (s : Engine) : Prop where
  volumes : ∀ volume ∈ s.volumes.rows, volume.name ∈ x.volume_names →
    volume.labels[LABEL_SESSION_ID]? = some x.session_id
  containers : ∀ container ∈ s.containers.rows, container.name = kernel_container_name x.session_id →
    container.labels[LABEL_SESSION_ID]? = some x.session_id

/-- What the call creates under a name of the session, it labels with the session. -/
def Fits (x : Session) : Call → Prop
  | .create_volume name labels => name ∈ x.volume_names →
      labels[LABEL_SESSION_ID]? = some x.session_id
  | .create_container spec => spec.name = kernel_container_name x.session_id →
      spec.labels[LABEL_SESSION_ID]? = some x.session_id
  | _ => True

theorem Clear.exec {x : Session} {s : Engine} {c : Call} {choice : Choice} (h : Clear x s)
    (hfits : Fits x c) : Clear x (Engine.exec c choice s).2 := by
  refine ⟨fun volume hmem hname => ?_, fun container hmem hname => ?_⟩
  · rcases Engine.volume_cases c hmem with hbefore | ⟨name, labels, rfl, rfl⟩
    · exact h.volumes volume hbefore hname
    · exact hfits hname
  · rcases Engine.container_cases c hmem with ⟨before, hbefore, hsame, hlabels, -⟩ | ⟨spec, rfl, rfl⟩
    · rw [← hlabels]
      exact h.containers before hbefore (hsame.trans hname)
    · exact hfits hname

namespace Hosts

variable {ids : List SessionId} {s : Engine} {id : SessionId}

theorem free (h : Hosts ids s) (hother : ∀ e ∈ ids, e.timestamp_ms ≠ id.timestamp_ms) {name : Text}
    (hname : name ∈ id.session.volume_names) : s.volumes.get name = none := by
  cases hget : s.volumes.get name with
  | none => rfl
  | some volume =>
    obtain ⟨hmem, rfl⟩ := Table.get_eq_some_iff.1 hget
    obtain ⟨e, he, -, hname'⟩ := h.named volume hmem id hname
    have hne : first_n e.text 12 ≠ first_n id.text 12 :=
      fun heq => hother e he ((SessionId.first_n_eq_iff e id).1 heq)
    have htelemetry : ∀ i ∈ e.session.telemetry_volume_identity,
        ∀ j ∈ id.session.telemetry_volume_identity, first_n i 12 ≠ first_n j 12 := by
      rintro i hi j hj
      obtain rfl := Option.some.inj hi
      obtain rfl := Option.some.inj hj
      exact hne
    exact absurd hname (volume_names_disjoint hne htelemetry hname')

theorem clear (h : Hosts ids s) (hother : ∀ e ∈ ids, e.timestamp_ms ≠ id.timestamp_ms) :
    Clear id.session s := by
  refine ⟨fun volume hmem hname => ?_, fun container hmem hname => ?_⟩
  · have hget := Table.mem_rows_iff.1 hmem
    rw [h.free hother hname] at hget
    cases hget
  · obtain ⟨e, he, -, hname'⟩ := h.containers container hmem id hname
    have heq := kernel_container_name_eq_iff.1 (hname'.symm.trans hname)
    exact absurd ((SessionId.first_n_eq_iff e id).1 heq) (hother e he)

theorem unlabelled (h : Hosts ids s) (hfresh : id ∉ ids) {volume : DockerVolumeResource}
    (hmem : volume ∈ s.volumes.rows) : volume.labels[LABEL_SESSION_ID]? ≠ some id.text := by
  intro hlabel
  obtain ⟨e, he, hown, -⟩ := h.labelled volume hmem _ hlabel
  exact hfresh (SessionId.ext (Option.some.inj (hown.symm.trans hlabel)) ▸ he)

end Hosts

/-! ## Where nothing is in the way -/

section Creation

variable {x : Session} {config : DockerRuntimeConfig} {request : RuntimeCreateSession}

variable {name : Text}

theorem volume_of_inspect {s : Engine} {choice : Choice} {found : Option DockerVolumeResource}
    (h : (Engine.exec (.inspect_volume name) choice s).1 = .ok found) {volume : DockerVolumeResource}
    (hfound : volume ∈ found) : volume ∈ s.volumes.rows ∧ volume.name = name := by
  unfold Engine.exec at h
  dsimp only at h
  cases hfails : choice.fails with
  | some detail =>
    rw [hfails] at h
    cases h
  | none =>
    rw [hfails] at h
    have hget : s.volumes.get name = found := Except.ok.inj h
    exact Table.get_eq_some_iff.1 (hget.trans hfound)

theorem container_of_inspect {s : Engine} {choice : Choice} {found : Option DockerContainerResource}
    (h : (Engine.exec (.inspect_container name) choice s).1 = .ok found)
    {container : DockerContainerResource} (hfound : container ∈ found) :
    container ∈ s.containers.rows ∧ container.name = name := by
  unfold Engine.exec at h
  dsimp only at h
  cases hfails : choice.fails with
  | some detail =>
    rw [hfails] at h
    cases h
  | none =>
    rw [hfails] at h
    have hget : (s.without_exited choice.exited).containers.get name = found := Except.ok.inj h
    obtain ⟨hmem, hname⟩ := Table.get_eq_some_iff.1 (hget.trans hfound)
    exact ⟨Engine.mem_without_exited hmem, hname⟩

theorem yields_call {c : Call} (h : Fits x c) : Yields (Clear x) (call c) fun _ => Clear x :=
  Yields.call_keep fun _ _ hclear => hclear.exec h

/-- A look at a volume of the session: if there is one, it has the label of the session. -/
theorem yields_inspect_volume (hname : name ∈ x.volume_names) :
    Yields (Clear x) (call (.inspect_volume name)) fun found s => Clear x s
      ∧ ∀ volume ∈ found, volume.labels[LABEL_SESSION_ID]? = some x.session_id :=
  Yields.call fun _ _ _ hclear hanswer => ⟨hclear.exec trivial, fun volume hvolume => by
    obtain ⟨hmem, rfl⟩ := volume_of_inspect hanswer hvolume
    exact hclear.volumes volume hmem hname⟩

theorem yields_inspect_container :
    Yields (Clear x) (call (.inspect_container (kernel_container_name x.session_id))) fun found s =>
      Clear x s ∧ ∀ container ∈ found, container.labels[LABEL_SESSION_ID]? = some x.session_id :=
  Yields.call fun _ _ _ hclear hanswer => ⟨hclear.exec trivial, fun container hcontainer => by
    obtain ⟨hmem, hname⟩ := container_of_inspect hanswer hcontainer
    exact hclear.containers container hmem hname⟩

theorem yields_fail_if {P : Engine → Prop} {condition : Prop} [Decidable condition]
    {error : AgentHostError} (h : NoCollision error) : Yields P (fail_if condition error) fun _ => P :=
  Yields.fail_if fun _ _ _ => h

theorem yields_check_volume_owner (hname : name ∈ x.volume_names) :
    Yields (Clear x) (check_volume_owner name x.session_id) fun _ => Clear x := by
  refine .bind (yields_inspect_volume hname) fun found => ?_
  cases found with
  | none => exact .pure fun s hs => hs.1
  | some volume =>
    refine (Yields.fail_if fun s hs hne => ?_).mono (fun s hs => hs) fun _ _ hs => hs.1
    exact absurd (hs.2 volume rfl) hne

theorem yields_ensure_volume {labels : Labels} (h : Fits x (.create_volume name labels)) :
    Yields (Clear x) (ensure_volume name labels) fun _ => Clear x := by
  refine .bind (yields_call trivial) fun found => ?_
  cases found with
  | none => exact yields_call h
  | some volume => exact .pure fun _ hs => hs

/-- What has just been created is looked at again. -/
theorem yields_created (hname : name ∈ x.volume_names) {validate : DockerVolumeResource → Operation Unit}
    (hvalidate : ∀ volume, Yields (Clear x) (validate volume) fun _ => Clear x) :
    Yields (Clear x) (do
      match ← call (.inspect_volume name) with
      | none => throw (.disappeared name)
      | some created => do
        fail_if (created.labels[LABEL_SESSION_ID]? ≠ some x.session_id)
          (.identity_collision "volume name" name x.session_id)
        validate created
        pure name) fun _ => Clear x := by
  refine .bind (yields_inspect_volume hname) fun found => ?_
  cases found with
  | none => exact .throw fun _ _ _ h => by cases h
  | some volume =>
    have hkeep : ∀ s, (Clear x s ∧ ∀ v ∈ some volume, v.labels[LABEL_SESSION_ID]? = some x.session_id) →
        Clear x s := fun s hs => hs.1
    refine .bind ((Yields.fail_if fun s hs hne => ?_).mono (fun s hs => hs) fun _ => hkeep)
      fun _ => ?_
    · exact absurd (hs.2 volume rfl) hne
    · exact .bind (hvalidate volume) fun _ => .pure fun _ hs => hs

theorem yields_ensure_session_workspace_volume (hid : request.session_id = x.session_id) :
    Yields (Clear x) (ensure_session_workspace_volume request) fun _ => Clear x := by
  have hname : session_workspace_volume_name x.session_id ∈ x.volume_names := List.mem_cons_self
  have hvalidate : ∀ volume : DockerVolumeResource, Yields (Clear x)
      (validate_session_resource_labels "Docker volume" volume.name volume.labels "session-workspace"
        request.interaction_mode) fun _ => Clear x :=
    fun volume => yields_fail_if fun _ _ _ h => by cases h
  unfold ensure_session_workspace_volume
  rw [hid]
  refine .bind (yields_check_volume_owner hname) fun _ => ?_
  refine .bind (yields_call trivial) fun listed => ?_
  rcases matching_volumes "session-workspace" x.session_id listed with _ | ⟨volume, _ | ⟨other, rest⟩⟩
  · refine .bind (yields_fail_if fun _ _ _ h => by cases h) fun _ => ?_
    refine .bind (yields_call trivial) fun resource_id => ?_
    refine .bind (yields_ensure_volume fun _ => ?_) fun _ => ?_
    · rw [label_workspace, hid]
    · exact yields_created hname hvalidate
  · exact .bind (hvalidate volume) fun _ => .pure fun _ hs => hs
  · exact .throw fun _ _ _ h => by cases h

theorem yields_ensure_session_telemetry_volume (hid : request.session_id = x.session_id)
    (htelemetry : request.telemetry_volume_identity = x.telemetry_volume_identity) :
    Yields (Clear x) (ensure_session_telemetry_volume request) fun _ => Clear x := by
  unfold ensure_session_telemetry_volume
  cases hidentity : request.telemetry_volume_identity with
  | none => exact .pure fun _ hs => hs
  | some identity =>
    have hname : session_telemetry_volume_name identity ∈ x.volume_names := by
      rw [Session.volume_names, ← htelemetry, hidentity]
      exact List.mem_cons_of_mem _ List.mem_cons_self
    have hvalidate : ∀ volume : DockerVolumeResource, Yields (Clear x)
        (validate_telemetry_volume_labels "Docker volume" volume.name volume.labels) fun _ => Clear x :=
      fun volume => yields_fail_if fun _ _ _ h => by cases h
    have hensure : Yields (Clear x) (ensure_telemetry_volume request identity) fun _ => Clear x := by
      unfold ensure_telemetry_volume
      rw [hid]
      refine .bind (yields_check_volume_owner hname) fun _ => ?_
      refine .bind (yields_call trivial) fun listed => ?_
      rcases matching_volumes "session-telemetry" x.session_id listed
        with _ | ⟨volume, _ | ⟨other, rest⟩⟩
      · refine .bind (yields_fail_if fun _ _ _ h => by cases h) fun _ => ?_
        refine .bind (yields_ensure_volume fun _ => ?_) fun _ => ?_
        · rw [label_telemetry, hid]
        · exact yields_created hname hvalidate
      · exact .bind (hvalidate volume) fun _ => .pure fun _ hs => hs
      · exact .throw fun _ _ _ h => by cases h
    exact .map hensure

/-- The volume of Copilot has no label of a session. -/
theorem yields_ensure_copilot_state_volume
    (hcopilot : request.harness = .CopilotCli → config.copilot_volume ∉ x.volume_names) :
    Yields (Clear x) (ensure_copilot_state_volume config request) fun _ => Clear x := by
  unfold ensure_copilot_state_volume
  by_cases hharness : request.harness = .CopilotCli
  · rw [if_neg (not_not.2 hharness)]
    refine .bind (yields_call trivial) fun found => ?_
    cases found with
    | some volume => exact .pure fun _ hs => hs
    | none =>
      refine .bind (yields_fail_if fun _ _ _ h => by cases h) fun _ => ?_
      exact yields_ensure_volume fun hname => absurd hname (hcopilot hharness)
  · rw [if_pos hharness]
    exact .pure fun _ hs => hs

theorem yields_matching_kernel_container (hid : request.session_id = x.session_id) :
    Yields (Clear x) (matching_kernel_container request) fun _ => Clear x := by
  have howner : Yields (Clear x)
      (check_container_owner (kernel_container_name x.session_id) x.session_id) fun _ => Clear x := by
    refine .bind yields_inspect_container fun found => ?_
    cases found with
    | none => exact .pure fun s hs => hs.1
    | some container =>
      refine (Yields.fail_if fun s hs hne => ?_).mono (fun s hs => hs) fun _ _ hs => hs.1
      exact absurd (hs.2 container rfl) hne
  unfold matching_kernel_container
  rw [hid]
  refine .bind howner fun _ => ?_
  refine .bind (yields_call trivial) fun listed => ?_
  rcases matching_containers x.session_id listed with _ | ⟨container, _ | ⟨other, rest⟩⟩
  · exact .pure fun _ hs => hs
  · refine .bind (yields_fail_if fun _ _ _ h => by cases h) fun _ => ?_
    refine .bind (yields_fail_if fun _ _ _ h => by cases h) fun _ => ?_
    exact .pure fun _ hs => hs
  · exact .throw fun _ _ _ h => by cases h

/-! ## What comes after the checks -/

/-- The operation comes to an end that is no collision, wherever it starts. -/
abbrev Harmless {α : Type} (operation : Operation α) : Prop :=
  Yields (fun _ => True) operation fun _ _ => True

theorem harmless_call (c : Call) : Harmless (call c) := .call_keep fun _ _ _ => trivial

theorem harmless_ensure_volume (name : Text) (labels : Labels) : Harmless (ensure_volume name labels) := by
  refine .bind (harmless_call _) fun found => ?_
  cases found with
  | none => exact harmless_call _
  | some volume => exact .pure fun _ _ => trivial

theorem harmless_workspace_volume_mounts (mounts : List WorkspaceMount) :
    Harmless (workspace_volume_mounts mounts) := by
  induction mounts with
  | nil => exact .pure fun _ _ => trivial
  | cons mount mounts ih =>
    refine .bind (harmless_ensure_volume _ _) fun _ => ?_
    exact .bind ih fun _ => .pure fun _ _ => trivial

theorem harmless_skill_volume_mounts (resources : List SkillVolumeResource) :
    Harmless (skill_volume_mounts resources) := by
  induction resources with
  | nil => exact .pure fun _ _ => trivial
  | cons resource resources ih =>
    refine .bind (harmless_ensure_volume _ _) fun _ => ?_
    exact .bind ih fun _ => .pure fun _ _ => trivial

theorem harmless_run_kernel_container (container_name workspace_volume : Text)
    (telemetry_volume : Option Text) :
    Harmless (run_kernel_container config container_name workspace_volume telemetry_volume request) := by
  have hvolumes : Harmless (kernel_volumes config workspace_volume telemetry_volume request) := by
    refine .bind (harmless_workspace_volume_mounts _) fun _ => ?_
    exact .bind (harmless_skill_volume_mounts _) fun _ => .pure fun _ _ => trivial
  refine .bind hvolumes fun volumes => ?_
  exact .bind (harmless_call _) fun _ => harmless_call _

theorem harmless_check_mount (container : DockerContainerResource) (session_id mount_path expected : Text) :
    Harmless (check_mount container session_id mount_path expected) := by
  unfold check_mount
  cases container.mounts[mount_path]? with
  | none => exact .throw fun _ _ _ h => by cases h
  | some mounted => exact yields_fail_if fun _ _ _ h => by cases h

theorem harmless_kernel_container (workspace_volume : Text) (telemetry_volume : Option Text)
    (found : Option DockerContainerResource) :
    Harmless (kernel_container config request workspace_volume telemetry_volume found) := by
  have hpure : ∀ name : Text, Harmless (pure name : Operation Text) :=
    fun _ => .pure fun _ _ => trivial
  cases found with
  | none => exact .bind (harmless_run_kernel_container _ _ _) fun _ => hpure _
  | some container =>
    by_cases hrunning : container.running = true
    · rw [kernel_container, if_pos hrunning]
      refine .bind (harmless_check_mount _ _ _ _) fun _ => ?_
      refine .bind ?_ fun _ => hpure _
      cases telemetry_volume with
      | none => exact .pure fun _ _ => trivial
      | some name => exact harmless_check_mount _ _ _ _
    · rw [kernel_container, if_neg hrunning]
      refine .bind (harmless_call _) fun _ => ?_
      exact .bind (harmless_run_kernel_container _ _ _) fun _ => hpure _

/-- **No collision.** Where nothing is in the way of the names of a session, its creation
fails with no collision. -/
theorem yields_create_session (hid : request.session_id = x.session_id)
    (htelemetry : request.telemetry_volume_identity = x.telemetry_volume_identity)
    (hcopilot : request.harness = .CopilotCli → config.copilot_volume ∉ x.volume_names) :
    Yields (Clear x) (create_session config request) fun _ _ => True := by
  refine .bind (yields_ensure_copilot_state_volume hcopilot) fun _ => ?_
  refine .bind (yields_ensure_session_workspace_volume hid) fun workspace => ?_
  refine .bind (yields_ensure_session_telemetry_volume hid htelemetry) fun telemetry => ?_
  refine .bind (yields_matching_kernel_container hid) fun found => ?_
  have hrest : Harmless (do
      let container_name ← kernel_container config request workspace telemetry found
      let _ ← call (.container_host_port container_name config.vscode_container_port)
      let _ ← call (.container_host_port container_name config.free_port_container_port)
      call (.healthz (config.base_url_template container_name))
      pure (⟨request.session_id, container_name, workspace, telemetry⟩ : DockerKernelSession)) := by
    refine .bind (harmless_kernel_container _ _ _) fun container_name => ?_
    refine .bind (harmless_call _) fun _ => ?_
    refine .bind (harmless_call _) fun _ => ?_
    exact .bind (harmless_call _) fun _ => .pure fun _ _ => trivial
  exact hrest.mono (fun _ _ => trivial) fun _ _ h => h

end Creation

/-! ## Where something is in the way -/

section Collision

variable {config : DockerRuntimeConfig} {request : RuntimeCreateSession} {s : Engine}

/-- A volume under the name that has not the label of the session. -/
def Taken (s : Engine) (name session_id : Text) : Prop :=
  ∃ volume, s.volumes.get name = some volume ∧ volume.labels[LABEL_SESSION_ID]? ≠ some session_id

/-- The creation of the session fails with a collision. -/
def Collides {α : Type} (operation : Operation α) (s : Engine) : Prop :=
  ∃ resource_kind resource_name session_id t,
    Quietly () operation s (.error (.identity_collision resource_kind resource_name session_id)) t

namespace Collides

variable {α β : Type} {p : Operation α} {f : α → Operation β} {a : α} {t : Engine}

theorem bind_error (h : Collides p s) : Collides (p >>= f) s := by
  obtain ⟨resource_kind, resource_name, session_id, t, h⟩ := h
  exact ⟨resource_kind, resource_name, session_id, t, h.bind_error⟩

theorem bind (hp : Quietly () p s (.ok a) t) (h : Collides (f a) t) : Collides (p >>= f) s := by
  obtain ⟨resource_kind, resource_name, session_id, u, h⟩ := h
  exact ⟨resource_kind, resource_name, session_id, u, hp.bind h⟩

end Collides

theorem collides_check_volume_owner {name session_id : Text} (h : Taken s name session_id) :
    Collides (check_volume_owner name session_id) s := by
  obtain ⟨volume, hget, hlabel⟩ := h
  have hinspect : Quietly () (call (.inspect_volume name)) s (.ok (some volume)) s :=
    Quietly.call (congrArg (fun found => (Except.ok found, s)) hget)
  exact ⟨_, _, _, s, hinspect.bind (Quietly.fail_if hlabel)⟩

theorem quietly_check_volume_owner {name session_id : Text} (h : s.volumes.get name = none) :
    Quietly () (check_volume_owner name session_id) s (.ok ()) s :=
  (Quietly.call (congrArg (fun found => (Except.ok found, s)) h)).bind Quietly.pure

theorem quietly_ensure_volume {name : Text} {labels : Labels} (h : s.volumes.get name = none) :
    Quietly () (ensure_volume name labels) s (.ok ())
      { s with volumes := s.volumes.put (Engine.volume_resource name labels quiet.id) } := by
  refine (Quietly.call (congrArg (fun found => (Except.ok found, s)) h)).bind (Quietly.call ?_)
  simp only [Engine.answer, h]

/-- The volume of Copilot, once it is created. -/
def copilot_volume (config : DockerRuntimeConfig) : DockerVolumeResource :=
  Engine.volume_resource config.copilot_volume
    (btree_map [(LABEL_ROLE, "copilot-state".toList), (LABEL_MANAGED, "true".toList)]) quiet.id

theorem label_copilot_volume : (copilot_volume config).labels[LABEL_SESSION_ID]? = none := by
  show (btree_map _)[LABEL_SESSION_ID]? = none
  rw [getElem?_btree_map]
  rfl

/-- What the first step leaves: the volume of Copilot may be new. -/
structure AfterCopilot (config : DockerRuntimeConfig) (request : RuntimeCreateSession) (s t : Engine) :
    Prop where
  quietly : Quietly () (ensure_copilot_state_volume config request) s (.ok ()) t
  volumes : t = s ∨ s.volumes.get config.copilot_volume = none
    ∧ t.volumes = s.volumes.put (copilot_volume config)
  created : request.harness = .CopilotCli → s.volumes.get config.copilot_volume = none →
    t.volumes = s.volumes.put (copilot_volume config)

theorem exists_after_copilot (config : DockerRuntimeConfig) (s : Engine)
    (hnew : recovery_expected request = false) : ∃ t, AfterCopilot config request s t := by
  by_cases hharness : request.harness = .CopilotCli
  · cases hget : s.volumes.get config.copilot_volume with
    | some volume =>
      refine ⟨s, ?_, Or.inl rfl, fun _ h => by rw [hget] at h; cases h⟩
      rw [ensure_copilot_state_volume, if_neg (not_not.2 hharness)]
      exact (Quietly.call (congrArg (fun found => (Except.ok found, s)) hget)).bind Quietly.pure
    | none =>
      refine ⟨{ s with volumes := s.volumes.put (copilot_volume config) }, ?_, Or.inr ⟨hget, rfl⟩,
        fun _ _ => rfl⟩
      rw [ensure_copilot_state_volume, if_neg (not_not.2 hharness)]
      refine (Quietly.call (congrArg (fun found => (Except.ok found, s)) hget)).bind ?_
      have hexpected : ¬recovery_expected request = true := by
        rw [hnew]
        exact Bool.false_ne_true
      exact (Quietly.not_fail_if hexpected).bind (quietly_ensure_volume hget)
  · refine ⟨s, ?_, Or.inl rfl, fun h => absurd h hharness⟩
    rw [ensure_copilot_state_volume, if_pos hharness]
    exact Quietly.pure

namespace AfterCopilot

variable {t : Engine}

theorem taken (h : AfterCopilot config request s t) {name session_id : Text}
    (htaken : Taken s name session_id) : Taken t name session_id := by
  rcases h.volumes with rfl | ⟨hnone, hvolumes⟩
  · exact htaken
  · obtain ⟨volume, hget, hlabel⟩ := htaken
    have hne : name ≠ (copilot_volume config).name := by
      rintro rfl
      exact absurd (hnone.symm.trans hget) (by simp)
    refine ⟨volume, ?_, hlabel⟩
    rw [hvolumes]
    exact (Table.get_put_of_ne s.volumes hne).trans hget

/-- The name of the volume of Copilot is taken. -/
theorem taken_copilot (h : AfterCopilot config request s t) (hharness : request.harness = .CopilotCli)
    (hnone : s.volumes.get config.copilot_volume = none) (session_id : Text) :
    Taken t config.copilot_volume session_id := by
  refine ⟨copilot_volume config, ?_, ?_⟩
  · rw [h.created hharness hnone]
    exact Table.get_put_self _ (copilot_volume config)
  · rw [label_copilot_volume]
    intro h
    cases h

theorem collides_of_workspace (h : AfterCopilot config request s t)
    (htaken : Taken t (session_workspace_volume_name request.session_id) request.session_id) :
    Collides (create_session config request) s := by
  refine Collides.bind h.quietly (Collides.bind_error ?_)
  exact Collides.bind_error (collides_check_volume_owner htaken)

theorem collides_of_telemetry {u : Engine} {identity name : Text} (h : AfterCopilot config request s t)
    (hworkspace : Quietly () (ensure_session_workspace_volume request) t (.ok name) u)
    (hidentity : request.telemetry_volume_identity = some identity)
    (htaken : Taken u (session_telemetry_volume_name identity) request.session_id) :
    Collides (create_session config request) s := by
  refine Collides.bind h.quietly (Collides.bind hworkspace (Collides.bind_error ?_))
  have hensure : Collides (ensure_telemetry_volume request identity) u :=
    Collides.bind_error (collides_check_volume_owner htaken)
  rw [ensure_session_telemetry_volume, hidentity]
  obtain ⟨resource_kind, resource_name, session_id, v, choices, hfollow⟩ := hensure
  exact ⟨resource_kind, resource_name, session_id, v, choices, solo_bind _ hfollow⟩

end AfterCopilot

/-- The labels of a new workspace volume pass their check. -/
theorem validate_new_workspace_volume (request : RuntimeCreateSession) (name resource_id : Text) :
    validate_session_resource_labels "Docker volume" name
      ((session_workspace_labels request).insert LABEL_RESOURCE_ID resource_id) "session-workspace"
      request.interaction_mode = pure () := by
  have hlookup : ∀ key, key ≠ LABEL_RESOURCE_ID →
      ((session_workspace_labels request).insert LABEL_RESOURCE_ID resource_id)[key]?
        = (session_workspace_labels request)[key]? := by
    intro key hkey
    rw [getElem?_insert_label, if_neg hkey.symm]
  have hrole : is_managed_role ((session_workspace_labels request).insert LABEL_RESOURCE_ID resource_id)
      "session-workspace" = true := by
    rw [is_managed_role, hlookup _ (by decide), hlookup _ (by decide), session_workspace_labels,
      getElem?_btree_map, getElem?_btree_map]
    rfl
  refine fail_if_neg ?_
  rw [hlookup _ (by decide), hrole, session_workspace_labels, getElem?_btree_map]
  rintro (h | h)
  · exact h rfl
  · exact h rfl

/-- Where there is no such volume, the workspace volume is created. -/
theorem quietly_ensure_session_workspace_volume (hnew : recovery_expected request = false)
    (hfree : s.volumes.get (session_workspace_volume_name request.session_id) = none)
    (hunlabelled : ∀ volume ∈ s.volumes.rows, volume.labels[LABEL_SESSION_ID]? ≠ some request.session_id) :
    ∃ volume, volume.name = session_workspace_volume_name request.session_id
      ∧ Quietly () (ensure_session_workspace_volume request) s
        (.ok (session_workspace_volume_name request.session_id))
        { s with volumes := s.volumes.put volume } := by
  have hmatching : matching_volumes "session-workspace" request.session_id s.volumes.rows = [] := by
    refine List.filter_eq_nil_iff.2 fun volume hmem h => ?_
    rw [Bool.and_eq_true, decide_eq_true_eq] at h
    exact hunlabelled volume hmem h.2
  have hexpected : ¬recovery_expected request = true := by
    rw [hnew]
    exact Bool.false_ne_true
  refine ⟨Engine.volume_resource (session_workspace_volume_name request.session_id)
    ((session_workspace_labels request).insert LABEL_RESOURCE_ID quiet.id) quiet.id, rfl, ?_⟩
  refine (quietly_check_volume_owner hfree).bind ?_
  refine (Quietly.call (rfl : s.answer quiet .list_volumes = (.ok s.volumes.rows, s))).bind ?_
  rw [hmatching]
  refine (Quietly.not_fail_if hexpected).bind ?_
  refine (Quietly.call (rfl : s.answer quiet .now_v7 = (.ok quiet.id, s))).bind ?_
  refine (quietly_ensure_volume hfree).bind ?_
  refine (Quietly.call (congrArg (fun found => (Except.ok found, _)) (Table.get_put_self _ _))).bind ?_
  have howner : ¬((session_workspace_labels request).insert LABEL_RESOURCE_ID quiet.id)[LABEL_SESSION_ID]?
      ≠ some request.session_id := not_not.2 (label_workspace _)
  have hvalidate : ∀ u, Quietly () (validate_session_resource_labels "Docker volume"
      (session_workspace_volume_name request.session_id)
      ((session_workspace_labels request).insert LABEL_RESOURCE_ID quiet.id) "session-workspace"
      request.interaction_mode) u (.ok ()) u := by
    intro u
    rw [validate_new_workspace_volume]
    exact Quietly.pure
  exact (Quietly.not_fail_if howner).bind ((hvalidate _).bind Quietly.pure)

end Collision

/-- **Independent sessions.** The creation of a new session fails with a collision in no
run if and only if no existing session is of its millisecond, and the volume of Copilot,
where it is used, has no name of the session. -/
theorem never_collides_iff (config : DockerRuntimeConfig) (request : RuntimeCreateSession)
    (ids : List SessionId) (id : SessionId) (s : Engine) (hfresh : id ∉ ids) (hhosts : Hosts ids s)
    (hid : request.session_id = id.text) (htelemetry : ∀ i ∈ request.telemetry_volume_identity, i = id.text)
    (hnew : recovery_expected request = false) : (∀ choices resource_kind resource_name session_id t,
      solo calls () choices (create_session config request).run s
        ≠ some (.ret (.error (.identity_collision resource_kind resource_name session_id)), t))
      ↔ (∀ e ∈ ids, e.timestamp_ms ≠ id.timestamp_ms)
        ∧ (request.harness = .CopilotCli → config.copilot_volume ∉
          Session.volume_names ⟨request.session_id, request.telemetry_volume_identity⟩) := by
  have hsubset : ∀ name ∈ Session.volume_names ⟨request.session_id, request.telemetry_volume_identity⟩,
      name ∈ id.session.volume_names := by
    intro name hname
    rcases List.mem_cons.1 hname with rfl | hname
    · rw [hid]
      exact List.mem_cons_self
    · obtain ⟨i, hi, rfl⟩ := List.mem_map.1 hname
      rw [htelemetry i (Option.mem_toList.1 hi)]
      exact List.mem_cons_of_mem _ List.mem_cons_self
  constructor
  · intro hnever
    have hno : ¬Collides (create_session config request) s := by
      rintro ⟨resource_kind, resource_name, session_id, t, choices, hfollow⟩
      exact hnever choices resource_kind resource_name session_id t hfollow
    obtain ⟨t, hcopilot⟩ := exists_after_copilot config s hnew
    have hother : ∀ e ∈ ids, e.timestamp_ms ≠ id.timestamp_ms := by
      intro e he htimestamp
      obtain ⟨volume, hmem, hlabel, hname⟩ := hhosts.workspaces e he
      have hsame : session_workspace_volume_name e.text
          = session_workspace_volume_name request.session_id := by
        unfold session_workspace_volume_name
        rw [hid, (SessionId.first_n_eq_iff e id).2 htimestamp]
      have hget : s.volumes.get (session_workspace_volume_name request.session_id) = some volume :=
        Table.get_eq_some_iff.2 ⟨hmem, hname.trans hsame⟩
      have hne : volume.labels[LABEL_SESSION_ID]? ≠ some request.session_id := by
        rw [hlabel, hid]
        exact fun h => hfresh (SessionId.ext (Option.some.inj h) ▸ he)
      exact hno (hcopilot.collides_of_workspace (hcopilot.taken ⟨volume, hget, hne⟩))
    refine ⟨hother, fun hharness hname => hno ?_⟩
    have hnone := hhosts.free hother (hsubset _ hname)
    have hvolumes := hcopilot.created hharness hnone
    rcases List.mem_cons.1 hname with hworkspace | htelemetry'
    · exact hcopilot.collides_of_workspace (hworkspace ▸ hcopilot.taken_copilot hharness hnone _)
    · obtain ⟨identity, hidentity, hcopilot_name⟩ := List.mem_map.1 htelemetry'
      have hidentity' : request.telemetry_volume_identity = some identity := Option.mem_toList.1 hidentity
      have hne : session_workspace_volume_name request.session_id ≠ (copilot_volume config).name := by
        show _ ≠ config.copilot_volume
        rw [← hcopilot_name]
        exact workspace_volume_name_ne_telemetry _ _
      have hfree : t.volumes.get (session_workspace_volume_name request.session_id) = none := by
        rw [hvolumes]
        exact (Table.get_put_of_ne s.volumes hne).trans (hhosts.free hother (hsubset _ List.mem_cons_self))
      have hunlabelled : ∀ volume ∈ t.volumes.rows,
          volume.labels[LABEL_SESSION_ID]? ≠ some request.session_id := by
        intro volume hmem
        rw [hvolumes] at hmem
        rcases Table.mem_rows_put hmem with rfl | hmem
        · rw [label_copilot_volume]
          intro h
          cases h
        · rw [hid]
          exact hhosts.unlabelled hfresh hmem
      obtain ⟨volume, hvolume, hquietly⟩ :=
        quietly_ensure_session_workspace_volume hnew hfree hunlabelled
      refine hcopilot.collides_of_telemetry hquietly hidentity' ?_
      obtain ⟨taken, hget, hlabel⟩ := hcopilot.taken_copilot hharness hnone request.session_id
      refine ⟨taken, ?_, hlabel⟩
      rw [hcopilot_name, ← hget]
      exact Table.get_put_of_ne t.volumes (hvolume ▸ hne.symm)
  · rintro ⟨hother, hcopilot⟩ choices resource_kind resource_name session_id t hfollow
    have hclear := hhosts.clear hother
    have hclear' : Clear ⟨request.session_id, request.telemetry_volume_identity⟩ s := by
      refine ⟨fun volume hmem hname => ?_, fun container hmem hname => ?_⟩
      · have hlabel := hclear.volumes volume hmem (hsubset _ hname)
        rw [hlabel, hid]
        rfl
      · have hname' : container.name = kernel_container_name id.text := by
          rw [← hid]
          exact hname
        have hlabel := hclear.containers container hmem hname'
        rw [hlabel, hid]
        rfl
    have hyields : Yields (Clear ⟨request.session_id, request.telemetry_volume_identity⟩)
        (create_session config request) fun _ _ => True := yields_create_session rfl rfl hcopilot
    exact hyields.not_collision hclear' hfollow _ _ _ rfl

/-- An id of one millisecond, one of the same, and one of the next. -/
def first_id : SessionId where
  text := "0190163d8694739b8c1e4f5a6b7c8d90".toList
  length := by decide
  digits := digits_of_all (by decide)
  version := by decide
  variant := ⟨'8', by decide, by decide⟩

@[inherit_doc first_id]
def second_id : SessionId where
  text := "0190163d8694744a9d2f5061728394a5".toList
  length := by decide
  digits := digits_of_all (by decide)
  version := by decide
  variant := ⟨'9', by decide, by decide⟩

@[inherit_doc first_id]
def later_id : SessionId where
  text := "0190163d8695744a9d2f5061728394a5".toList
  length := by decide
  digits := digits_of_all (by decide)
  version := by decide
  variant := ⟨'9', by decide, by decide⟩

theorem hosts_first : Hosts [first_id] (only (workspace_volume first_id.session)) := by
  have hrow : ∀ volume ∈ (only (workspace_volume first_id.session)).volumes.rows,
      VolumeIs first_id volume := by
    intro volume hmem
    obtain rfl : volume = workspace_volume first_id.session := List.mem_singleton.1 hmem
    exact ⟨label_workspace _, List.mem_cons_self⟩
  refine ⟨fun id hid => ?_, fun volume hmem _ _ => ⟨_, List.mem_cons_self, hrow volume hmem⟩,
    fun volume hmem _ _ => ⟨_, List.mem_cons_self, hrow volume hmem⟩,
    fun container hmem => (List.not_mem_nil hmem).elim⟩
  obtain rfl := List.mem_singleton.1 hid
  exact ⟨workspace_volume first_id.session, List.mem_cons_self, label_workspace _, rfl⟩

theorem later_session_never_collides : later_id ∉ [first_id]
    ∧ ∀ choices resource_kind resource_name session_id t,
      solo calls () choices (create_session sample_config (plain_request later_id.session)).run
        (only (workspace_volume first_id.session))
          ≠ some (.ret (.error (.identity_collision resource_kind resource_name session_id)), t) := by
  have hfresh : later_id ∉ [first_id] := by
    intro h
    exact absurd (congrArg SessionId.text (List.mem_singleton.1 h)) (by decide)
  refine ⟨hfresh, ?_⟩
  refine (never_collides_iff sample_config (plain_request later_id.session) [first_id] later_id _ hfresh
    hosts_first rfl (fun i hi => (Option.some.inj hi).symm) rfl).2 ⟨fun e he => ?_, fun h => by cases h⟩
  obtain rfl := List.mem_singleton.1 he
  exact fun h => absurd ((SessionId.first_n_eq_iff _ _).2 h) (by decide)

/-- The second session of a millisecond is refused. -/
theorem second_session_collides : second_id ≠ first_id
    ∧ Hosts [first_id] (only (workspace_volume first_id.session))
    ∧ ∃ choices t, solo calls ()
      choices (create_session sample_config (plain_request second_id.session)).run
      (only (workspace_volume first_id.session))
        = some (.ret (.error (.identity_collision "volume name"
          "agentspace-session-workspace-0190163d8694".toList second_id.text)), t) := by
  refine ⟨fun h => absurd (congrArg SessionId.text h) (by decide), hosts_first, [quiet],
    only (workspace_volume first_id.session), ?_⟩
  rfl

end AgentSpace.Docker
