/-
Cleanup and the lifecycle of sessions: `SessionLifecycleLocks` and `cleanup_runtime`.

Whatever creates, recovers or deletes a session holds the gate for reading while it
does; a cleanup holds it for writing. So during a cleanup the session store stays as it
is (`removals_are_safe`).
-/
import AgentSpace.Docker.Cleanup

set_option autoImplicit false

namespace AgentSpace.Docker.Gate

open Lib Operation

/-! ## Both services -/

/-- The session store, Docker, the gate and the locks of the sessions. -/
structure World where
  sessions : Finset Text
  engine : Engine
  writer : Option ℕ
  readers : Finset ℕ
  locks : Text → Option ℕ

/-- A step of a handler. -/
inductive Call where
  | gate_read
  | gate_write
  | release_read
  | release_write
  | lock_session (session_id : Text)
  | unlock_session (session_id : Text)
  | list_sessions
  | insert_session (session_id : Text)
  | delete_session (session_id : Text)
  | docker (c : Docker.Call)

/-- What a step answers. -/
abbrev Call.Answer : Call → Type
  | list_sessions => Except AgentHostError (Finset Text)
  | insert_session _ => Except AgentHostError Unit
  | delete_session _ => Except AgentHostError Bool
  | docker c => c.Answer
  | _ => Unit

/-- An answer of the store, which may fail. -/
def store {α : Type} (choice : Choice) (s : World) (value : α) (t : World) :
    Except AgentHostError α × World :=
  match choice.fails with
  | some detail => (.error (.upstream detail), s)
  | none => (.ok value, t)

/-- The step of a thread; it cannot take a lock that is held. -/
def exec : Exec ℕ Call Choice World Call.Answer := fun i c choice s =>
  match c with
  | .gate_read => if s.writer = none then some ((), { s with readers := insert i s.readers }) else none
  | .gate_write =>
    if s.writer = none ∧ s.readers = ∅ then some ((), { s with writer := some i }) else none
  | .release_read => some ((), { s with readers := s.readers.erase i })
  | .release_write => some ((), { s with writer := none })
  | .lock_session session_id =>
    if s.locks session_id = none then
      some ((), { s with locks := Function.update s.locks session_id (some i) })
    else none
  | .unlock_session session_id => some ((), { s with locks := Function.update s.locks session_id none })
  | .list_sessions => some (store choice s s.sessions s)
  | .insert_session session_id =>
    some (store choice s () { s with sessions := insert session_id s.sessions })
  | .delete_session session_id =>
    some (store choice s (decide (session_id ∈ s.sessions))
      { s with sessions := s.sessions.erase session_id })
  | .docker c =>
    some ((Engine.exec c choice s.engine).1, { s with engine := (Engine.exec c choice s.engine).2 })

/-! ## Requests -/

/-- A program of a handler, which may fail. -/
abbrev Handler := ExceptT AgentHostError (Prog Call Call.Answer)

/-- An operation of the agent host, as a part of a handler. -/
def docker {α : Type} (operation : Operation α) : Handler α :=
  ExceptT.mk (operation.run.hoist Call.docker fun _ answer => answer)

/-- What a handler does with the store and with Docker. -/
def Inside : Call → Prop
  | .insert_session _ | .delete_session _ | .docker _ => True
  | _ => False

/-- A request: a creation, a recovery or a deletion of a session, with whatever its handler
does under the locks, or a cleanup. -/
inductive Request where
  | lifecycle (session_id : Text) (body : Prog Call Call.Answer (Except AgentHostError Unit))
      (h : body.Only Inside)
  | cleanup_runtime (dry_run : Bool) (reviewed_resources : Option (List CleanupResourceIdentity))

/-- `cleanup_runtime`, under the gate. -/
def cleanup_runtime (dry_run : Bool) (reviewed_resources : Option (List CleanupResourceIdentity)) :
    Handler (Option CleanupReport) := do
  if ¬dry_run ∧ reviewed_resources = none then throw .reviewed_resources_required
  else do
    let owned_session_ids ← (ExceptT.mk (Prog.lift Call.list_sessions) : Handler (Finset Text))
    some <$> docker (cleanup_orphans owned_session_ids dry_run reviewed_resources)

namespace Request

/-- The program of a request. The guard of a session lets go of the gate first. -/
def program : Request → Prog Call Call.Answer (Except AgentHostError (Option CleanupReport))
  | lifecycle session_id body _ => do
    Prog.lift Call.gate_read
    Prog.lift (Call.lock_session session_id)
    let result ← body
    Prog.lift Call.release_read
    Prog.lift (Call.unlock_session session_id)
    pure (result.map fun _ => none)
  | cleanup_runtime dry_run reviewed_resources => do
    Prog.lift Call.gate_write
    let result ← (Gate.cleanup_runtime dry_run reviewed_resources).run
    Prog.lift Call.release_write
    pure result

/-- What a request may remove by review: nothing, if it is a dry run. -/
def reviewed : Request → List CleanupResourceIdentity
  | cleanup_runtime false (some reviewed_resources) => reviewed_resources
  | _ => []

/-- The request is a cleanup. -/
def IsCleanup : Request → Prop
  | cleanup_runtime _ _ => True
  | lifecycle _ _ _ => False

end Request

/-! ## Removals -/

/-- What is there under a name. -/
structure Resource where
  is_container : Bool
  name : Text
  resource_id : Text
  labels : Labels

/-- A removal: whose it is, what is removed, and the session store at that moment. -/
structure Removal where
  thread : ℕ
  resource : Resource
  sessions : Finset Text

/-- A record of all removals. -/
def record (i : ℕ) (c : Call) (_ : c.Answer) (s : World) (removals : List Removal) : List Removal :=
  match c with
  | .docker (.remove_container name) =>
    match s.engine.containers.get name with
    | some container =>
      ⟨i, ⟨true, name, container.resource_id, container.labels⟩, s.sessions⟩ :: removals
    | none => removals
  | .docker (.remove_volume name) =>
    match s.engine.volumes.get name with
    | some volume => ⟨i, ⟨false, name, volume.resource_id, volume.labels⟩, s.sessions⟩ :: removals
    | none => removals
  | _ => removals

/-- The resource is the one of the identity: managed in the role of its kind, with its id
and its session. -/
structure Matches (resource : Resource) (identity : CleanupResourceIdentity) : Prop where
  is_container : resource.is_container = true ↔ identity.kind = .KernelContainer
  name : resource.name = identity.name
  resource_id : resource.resource_id = identity.resource_id
  not_empty : identity.resource_id ≠ []
  managed : is_managed_role resource.labels identity.kind.role = true
  session_id : resource.labels[LABEL_SESSION_ID]? = identity.session_id

/-- What is removed has been reviewed, and is of no session that is there. -/
structure Safe (reviewed : List CleanupResourceIdentity) (removal : Removal) : Prop where
  reviewed : ∃ identity ∈ reviewed, Matches removal.resource identity
  unowned : ∀ session_id ∈ removal.resource.labels[LABEL_SESSION_ID]?, session_id ∉ removal.sessions

section Rules

variable (requests : ℕ → Request)

/-- Nothing has been created or replaced. -/
structure Shrinks (s t : Engine) : Prop where
  containers : ∀ container ∈ t.containers.rows, container ∈ s.containers.rows
  volumes : ∀ volume ∈ t.volumes.rows, volume ∈ s.volumes.rows

/-- Readers and a writer exclude each other, and cleanups have removed what they may. -/
structure Kept (s : World × List Removal) : Prop where
  exclusive : s.1.writer ≠ none → s.1.readers = ∅
  safe : ∀ removal ∈ s.2, (requests removal.thread).IsCleanup →
    Safe (requests removal.thread).reviewed removal

/-- What a thread leaves to the others: who holds the gate, and for a writer the session
store and Docker. -/
structure Leaves (i : ℕ) (s t : World × List Removal) : Prop where
  readers : ∀ j, j ≠ i → j ∈ s.1.readers → j ∈ t.1.readers
  writer : ∀ j, j ≠ i → s.1.writer = some j →
    t.1.writer = some j ∧ t.1.sessions = s.1.sessions ∧ Shrinks s.1.engine t.1.engine

/-- The rules of the proofs below. -/
def rules : Rules ℕ Call Choice (World × List Removal) Call.Answer where
  exec := with_history exec record
  allow := fun _ _ _ _ => True
  invariant := Kept requests
  guarantee := Leaves

variable {requests} {i : ℕ}

variable {c : Call} {choice : Choice} {s t : World × List Removal}

theorem step_and_record {r : c.Answer} (h : (rules requests).exec i c choice s = some (r, t)) :
    exec i c choice s.1 = some (r, t.1) ∧ t.2 = record i c r s.1 s.2 := by
  have hstep : with_history exec record i c choice s = some (r, t) := h
  exact with_history_eq_some hstep

theorem Shrinks.refl (s : Engine) : Shrinks s s := ⟨fun _ h => h, fun _ h => h⟩

variable {removal : Removal}

/-- A removal that is recorded: of the thread that makes it, and of what is there. -/
theorem mem_record {r : c.Answer} {s : World} {removals : List Removal}
    (h : removal ∈ record i c r s removals) :
    removal ∈ removals ∨ removal.thread = i ∧ removal.sessions = s.sessions
      ∧ ((∃ container, c = .docker (.remove_container container.name)
          ∧ container ∈ s.engine.containers.rows
          ∧ removal.resource = ⟨true, container.name, container.resource_id, container.labels⟩)
        ∨ ∃ volume, c = .docker (.remove_volume volume.name) ∧ volume ∈ s.engine.volumes.rows
          ∧ removal.resource = ⟨false, volume.name, volume.resource_id, volume.labels⟩) := by
  unfold record at h
  split at h
  · rename_i name _
    cases hget : s.engine.containers.get name with
    | none =>
      rw [hget] at h
      exact Or.inl h
    | some container =>
      rw [hget] at h
      obtain ⟨hmem, rfl⟩ := Table.get_eq_some_iff.1 hget
      rcases List.mem_cons.1 h with rfl | h
      · exact Or.inr ⟨rfl, rfl, Or.inl ⟨container, rfl, hmem, rfl⟩⟩
      · exact Or.inl h
  · rename_i name _
    cases hget : s.engine.volumes.get name with
    | none =>
      rw [hget] at h
      exact Or.inl h
    | some volume =>
      rw [hget] at h
      obtain ⟨hmem, rfl⟩ := Table.get_eq_some_iff.1 hget
      rcases List.mem_cons.1 h with rfl | h
      · exact Or.inr ⟨rfl, rfl, Or.inr ⟨volume, rfl, hmem, rfl⟩⟩
      · exact Or.inl h
  · exact Or.inl h

/-! ## The lifecycle of sessions -/

/-- A thread that reads the gate. -/
def Reading (i : ℕ) (s : World × List Removal) : Prop := i ∈ s.1.readers

theorem stable_reading : (rules requests).Stable i (Reading i) :=
  fun _ hj _ _ _ _ hreading hleaves => hleaves.readers i (Ne.symm hj) hreading

theorem stable_true : (rules requests).Stable i fun _ => True := fun _ _ _ _ _ _ _ _ => trivial

theorem gate_of_inside {s t : World} {r : c.Answer} (h : Inside c)
    (hexec : exec i c choice s = some (r, t)) : t.readers = s.readers ∧ t.writer = s.writer := by
  cases c with
  | insert_session session_id | delete_session session_id =>
    obtain ⟨rfl, rfl⟩ := Prod.mk.inj (Option.some.inj hexec)
    cases choice.fails <;> exact ⟨rfl, rfl⟩
  | docker c =>
    obtain ⟨rfl, rfl⟩ := Prod.mk.inj (Option.some.inj hexec)
    exact ⟨rfl, rfl⟩
  | gate_read | gate_write | release_read | release_write | lock_session session_id
  | unlock_session session_id | list_sessions => exact h.elim

theorem Kept.no_writer {s : World × List Removal} (h : Kept requests s) (hreading : Reading i s) :
    s.1.writer = none := by
  by_contra hwriter
  rw [Reading, h.exclusive hwriter] at hreading
  exact Finset.notMem_empty i hreading

/-- Removals of a thread that is no cleanup do not matter. -/
theorem safe_of_lifecycle {r : c.Answer} {s : World × List Removal}
    (hs : Kept requests s) (hrequest : ¬(requests i).IsCleanup)
    (hmem : removal ∈ record i c r s.1 s.2) (hcleanup : (requests removal.thread).IsCleanup) :
    Safe (requests removal.thread).reviewed removal := by
  rcases mem_record hmem with hmem | ⟨rfl, -⟩
  · exact hs.safe removal hmem hcleanup
  · exact absurd hcleanup hrequest

/-- **Inside.** What a handler does under the locks of a session keeps the rules. -/
theorem keeps_inside {r : c.Answer}
    (hrequest : ¬(requests i).IsCleanup) (hinside : Inside c) (hs : Kept requests s)
    (hreading : Reading i s) (hexec : (rules requests).exec i c choice s = some (r, t)) :
    Kept requests t ∧ Leaves i s t ∧ Reading i t := by
  obtain ⟨hexec, hrecord⟩ := step_and_record hexec
  obtain ⟨hreaders, hwriter⟩ := gate_of_inside hinside hexec
  have hnone := hs.no_writer hreading
  refine ⟨⟨fun h => absurd (hwriter.trans hnone) h, fun removal hmem => ?_⟩,
    ⟨fun j _ hj => hreaders ▸ hj, fun j _ hj => ?_⟩, ?_⟩
  · rw [hrecord] at hmem
    exact safe_of_lifecycle hs hrequest hmem
  · rw [hnone] at hj
    cases hj
  · rw [Reading, hreaders]
    exact hreading

theorem keeps_locks (hs : Kept requests s) {locks : Text → Option ℕ}
    (ht : t = ({ s.1 with locks := locks }, s.2)) : Kept requests t ∧ Leaves i s t := by
  subst ht
  exact ⟨⟨hs.exclusive, hs.safe⟩, ⟨fun _ _ h => h, fun _ _ h => ⟨h, rfl, Shrinks.refl _⟩⟩⟩

theorem keeps_gate_read {r : Call.gate_read.Answer} (hs : Kept requests s)
    (hexec : (rules requests).exec i .gate_read choice s = some (r, t)) :
    Kept requests t ∧ Leaves i s t ∧ Reading i t := by
  obtain ⟨hexec, hrecord⟩ := step_and_record hexec
  have hremovals : t.2 = s.2 := hrecord
  have hstep : (if s.1.writer = none then some ((), { s.1 with readers := insert i s.1.readers })
      else none) = some (r, t.1) := hexec
  by_cases hwriter : s.1.writer = none
  · rw [if_pos hwriter] at hstep
    obtain ⟨-, hworld⟩ := Prod.mk.inj (Option.some.inj hstep)
    refine ⟨⟨fun h => absurd ?_ h, fun removal hmem => hs.safe removal (hremovals ▸ hmem)⟩,
      ⟨fun j _ hj => ?_, fun j _ hj => ?_⟩, ?_⟩
    · rw [← hworld]
      exact hwriter
    · rw [← hworld]
      exact Finset.mem_insert_of_mem hj
    · rw [hwriter] at hj
      cases hj
    · rw [Reading, ← hworld]
      exact Finset.mem_insert_self i _
  · rw [if_neg hwriter] at hstep
    cases hstep

/-- A reader lets go of the gate. -/
theorem keeps_release_read {r : Call.release_read.Answer} (hs : Kept requests s) (hreading : Reading i s)
    (hexec : (rules requests).exec i .release_read choice s = some (r, t)) :
    Kept requests t ∧ Leaves i s t := by
  obtain ⟨hexec, hrecord⟩ := step_and_record hexec
  obtain ⟨-, hworld⟩ := Prod.mk.inj (Option.some.inj hexec)
  have hremovals : t.2 = s.2 := hrecord
  have hnone := hs.no_writer hreading
  refine ⟨⟨fun h => absurd ?_ h, fun removal hmem => hs.safe removal (hremovals ▸ hmem)⟩,
    ⟨fun j hj hmem => ?_, fun j _ hj => ?_⟩⟩
  · rw [← hworld]
    exact hnone
  · rw [← hworld]
    exact Finset.mem_erase.2 ⟨hj, hmem⟩
  · rw [hnone] at hj
    cases hj

/-- **Lifecycle.** The handler of a session keeps the rules. -/
theorem outline_lifecycle {session_id : Text} {body : Prog Call Call.Answer (Except AgentHostError Unit)}
    (h : body.Only Inside) (hrequest : ¬(requests i).IsCleanup) :
    (rules requests).Outline i (fun _ => True) (Request.program (.lifecycle session_id body h))
      fun _ _ => True := by
  have hlock : ∀ c : Call, (c = .lock_session session_id ∨ c = .unlock_session session_id) →
      ∀ (s : World × List Removal) (choice : Choice) (r : c.Answer) (t : World × List Removal),
      Kept requests s → (rules requests).exec i c choice s = some (r, t) →
      Kept requests t ∧ Leaves i s t ∧ (Reading i s → Reading i t) := by
    intro c hc s choice r t hs hexec
    obtain ⟨hexec, hrecord⟩ := step_and_record hexec
    rcases hc with rfl | rfl
    · have hstep : (if s.1.locks session_id = none then
          some ((), { s.1 with locks := Function.update s.1.locks session_id (some i) }) else none)
            = some (r, t.1) := hexec
      by_cases hfree : s.1.locks session_id = none
      · rw [if_pos hfree] at hstep
        obtain ⟨-, hworld⟩ := Prod.mk.inj (Option.some.inj hstep)
        have ht : t = ({ s.1 with locks := Function.update s.1.locks session_id (some i) }, s.2) :=
          Prod.ext hworld.symm hrecord
        exact ⟨(keeps_locks (i := i) hs ht).1, (keeps_locks hs ht).2, ht ▸ fun hreading => hreading⟩
      · rw [if_neg hfree] at hstep
        cases hstep
    · obtain ⟨-, hworld⟩ := Prod.mk.inj (Option.some.inj hexec)
      have ht : t = ({ s.1 with locks := Function.update s.1.locks session_id none }, s.2) :=
        Prod.ext hworld.symm hrecord
      exact ⟨(keeps_locks (i := i) hs ht).1, (keeps_locks hs ht).2, ht ▸ fun hreading => hreading⟩
  refine Rules.Outline.bind (Q := fun _ => Reading i)
    (Rules.Outline.lift (fun _ => stable_reading) ?_) fun _ => ?_
  · exact fun s choice r t hs _ _ hexec => keeps_gate_read hs hexec
  refine Rules.Outline.bind (Q := fun _ => Reading i)
    (Rules.Outline.lift (fun _ => stable_reading) ?_) fun _ => ?_
  · intro s choice r t hs hreading _ hexec
    obtain ⟨hkept, hleaves, hstays⟩ := hlock _ (Or.inl rfl) s choice r t hs hexec
    exact ⟨hkept, hleaves, hstays hreading⟩
  refine Rules.Outline.bind (Q := fun _ => Reading i) (Rules.Outline.of_only h stable_reading ?_)
    fun _ => ?_
  · exact fun c s choice r t hinside hs hreading _ hexec => keeps_inside hrequest hinside hs hreading hexec
  refine Rules.Outline.bind (Q := fun _ _ => True)
    (Rules.Outline.lift (fun _ => stable_true) ?_) fun _ => ?_
  · intro s choice r t hs hreading _ hexec
    obtain ⟨hkept, hleaves⟩ := keeps_release_read hs hreading hexec
    exact ⟨hkept, hleaves, trivial⟩
  refine Rules.Outline.bind (Q := fun _ _ => True)
    (Rules.Outline.lift (fun _ => stable_true) ?_) fun _ => fun _ _ _ => trivial
  intro s choice r t hs _ _ hexec
  obtain ⟨hkept, hleaves, -⟩ := hlock _ (Or.inr rfl) s choice r t hs hexec
  exact ⟨hkept, hleaves, trivial⟩

/-! ## Cleanups -/

/-- A thread that writes the gate, for which the session store is known. -/
structure Writing (i : ℕ) (owned_session_ids : Finset Text) (s : World × List Removal) : Prop where
  writer : s.1.writer = some i
  sessions : s.1.sessions = owned_session_ids

variable {owned_session_ids : Finset Text}

theorem stable_writing : (rules requests).Stable i (Writing i owned_session_ids) := by
  intro j hj s t _ _ hwriting hleaves
  obtain ⟨hwriter, hsessions, -⟩ := hleaves.writer i (Ne.symm hj) hwriting.writer
  exact ⟨hwriter, hsessions.trans hwriting.sessions⟩

/-- What is known of Docker, as long as nothing is created: if there is a container under
the name, it is this one. -/
def OnlyContainer (name : Text) (found : Option DockerContainerResource) (s : Engine) : Prop :=
  ∀ container ∈ s.containers.rows, container.name = name → found = some container

@[inherit_doc OnlyContainer]
def OnlyVolume (name : Text) (found : Option DockerVolumeResource) (s : Engine) : Prop :=
  ∀ volume ∈ s.volumes.rows, volume.name = name → found = some volume

theorem stable_known {K : Engine → Prop} (hK : ∀ s t, K s → Shrinks s t → K t) :
    (rules requests).Stable i fun s => Writing i owned_session_ids s ∧ K s.1.engine := by
  intro j hj s t hs ht hknown hleaves
  obtain ⟨-, -, hshrinks⟩ := hleaves.writer i (Ne.symm hj) hknown.1.writer
  exact ⟨stable_writing j hj s t hs ht hknown.1 hleaves, hK _ _ hknown.2 hshrinks⟩

theorem OnlyContainer.shrink {name : Text} {found : Option DockerContainerResource} {s t : Engine}
    (h : OnlyContainer name found s) (hshrinks : Shrinks s t) : OnlyContainer name found t :=
  fun container hmem => h container (hshrinks.containers container hmem)

theorem OnlyVolume.shrink {name : Text} {found : Option DockerVolumeResource} {s t : Engine}
    (h : OnlyVolume name found s) (hshrinks : Shrinks s t) : OnlyVolume name found t :=
  fun volume hmem => h volume (hshrinks.volumes volume hmem)

/-- A call that creates and starts nothing. -/
def Shrinking : Docker.Call → Prop
  | .create_volume _ _ | .create_container _ | .start_container _ => False
  | _ => True

theorem shrinks_exec {c : Docker.Call} (h : Shrinking c) (choice : Choice) (s : Engine) :
    Shrinks s (Engine.exec c choice s).2 := by
  have hexited : Shrinks s (s.without_exited choice.exited) :=
    ⟨fun _ hmem => Engine.mem_without_exited hmem, fun _ hmem => hmem⟩
  unfold Engine.exec
  dsimp only
  cases choice.fails with
  | some detail => exact hexited
  | none =>
    cases c with
    | create_volume name labels | create_container spec | start_container name => exact h.elim
    | remove_container name =>
      exact ⟨fun container hmem => hexited.containers _ (Table.mem_rows_retain.1 hmem).1,
        hexited.volumes⟩
    | remove_volume name =>
      exact ⟨hexited.containers, fun volume hmem => (Table.mem_rows_retain.1 hmem).1⟩
    | inspect_container name | list_containers | inspect_volume name | list_volumes
    | container_host_port name port | healthz url | now_v7 => exact hexited

/-- A call of a cleanup: it shrinks Docker, and what it records is safe. -/
theorem keeps_docker {c : Docker.Call} {r : Call.Answer (.docker c)} (hs : Kept requests s)
    (hwriting : Writing i owned_session_ids s) (hshrinking : Shrinking c)
    (hsafe : ∀ removal ∈ record i (.docker c) r s.1 s.2, removal ∈ s.2
      ∨ removal.thread = i ∧ Safe (requests i).reviewed removal)
    (hexec : (rules requests).exec i (.docker c) choice s = some (r, t)) :
    Kept requests t ∧ Leaves i s t ∧ Writing i owned_session_ids t
      ∧ r = (Engine.exec c choice s.1.engine).1 ∧ t.1.engine = (Engine.exec c choice s.1.engine).2 := by
  obtain ⟨hexec, hrecord⟩ := step_and_record hexec
  obtain ⟨hanswer, hworld⟩ := Prod.mk.inj (Option.some.inj hexec)
  have hshrinks := shrinks_exec hshrinking choice s.1.engine
  have hwriter : t.1.writer = s.1.writer := by rw [← hworld]
  have hreaders : t.1.readers = s.1.readers := by rw [← hworld]
  have hsessions : t.1.sessions = s.1.sessions := by rw [← hworld]
  have hengine : t.1.engine = (Engine.exec c choice s.1.engine).2 := by rw [← hworld]
  refine ⟨⟨fun h => ?_, fun removal hmem hcleanup => ?_⟩, ⟨fun j _ hj => ?_, fun j hj hwriter' => ?_⟩,
    ⟨hwriter.trans hwriting.writer, hsessions.trans hwriting.sessions⟩, hanswer.symm, hengine⟩
  · rw [hreaders]
    exact hs.exclusive (hwriter ▸ h)
  · rw [hrecord] at hmem
    rcases hsafe removal hmem with hmem | ⟨rfl, hsafe⟩
    · exact hs.safe removal hmem hcleanup
    · exact hsafe
  · rw [hreaders]
    exact hj
  · rw [hwriting.writer] at hwriter'
    exact absurd (Option.some.inj hwriter').symm hj

/-- A look of a cleanup. -/
theorem safe_of_look {c : Docker.Call} {r : Call.Answer (.docker c)} {s : World}
    {removals : List Removal} (hcontainer : ∀ name, c ≠ .remove_container name)
    (hvolume : ∀ name, c ≠ .remove_volume name)
    (hmem : removal ∈ record i (.docker c) r s removals) : removal ∈ removals := by
  rcases mem_record hmem with hmem | ⟨-, -, ⟨container, hc, -⟩ | ⟨volume, hc, -⟩⟩
  · exact hmem
  · exact absurd (Call.docker.inj hc) (hcontainer _)
  · exact absurd (Call.docker.inj hc) (hvolume _)

section Cleanup

variable {owned_session_ids : Finset Text} {α β : Type}

/-- A part of a cleanup: it starts from `P`, ends with `Q`, and writes the gate throughout. -/
def Cleans (requests : ℕ → Request) (i : ℕ) (owned_session_ids : Finset Text)
    (P : World × List Removal → Prop) (operation : Operation α)
    (Q : α → World × List Removal → Prop) : Prop :=
  (rules requests).Ensures i P (docker operation) Q fun _ => Writing i owned_session_ids

theorem docker_bind (p : Operation α) (f : α → Operation β) :
    docker (p >>= f) = docker p >>= fun a => docker (f a) := by
  refine congrArg ExceptT.mk ((Prog.hoist_bind _ _ _ _).trans ?_)
  refine congrArg (_ >>= ·) (funext fun answer => ?_)
  cases answer with
  | ok a => rfl
  | error e => rfl

namespace Cleans

variable {P : World × List Removal → Prop}

variable {Q : α → World × List Removal → Prop}

theorem bind {p : Operation α} {f : α → Operation β}
    {Q' : β → World × List Removal → Prop} (h : Cleans requests i owned_session_ids P p Q)
    (hf : ∀ a, Cleans requests i owned_session_ids (Q a) (f a) Q') :
    Cleans requests i owned_session_ids P (p >>= f) Q' := by
  rw [Cleans, docker_bind]
  exact .bind h hf

theorem pure {a : α} (h : ∀ s, P s → Q a s) : Cleans requests i owned_session_ids P (Pure.pure a) Q :=
  fun s _ hP => h s hP

theorem throw {e : AgentHostError} (h : ∀ s, P s → Writing i owned_session_ids s) :
    Cleans requests i owned_session_ids P (MonadExcept.throw e : Operation α) Q :=
  fun s _ hP => h s hP

/-- A look, and what it finds out. -/
theorem look {c : Docker.Call} {K : c.Value → Engine → Prop} (hshrinking : Shrinking c)
    (hcontainer : ∀ name, c ≠ .remove_container name) (hvolume : ∀ name, c ≠ .remove_volume name)
    (hstable : ∀ value s t, K value s → Shrinks s t → K value t)
    (hfound : ∀ s choice value, (Engine.exec c choice s).1 = .ok value → K value (Engine.exec c choice s).2) :
    Cleans requests i owned_session_ids (Writing i owned_session_ids) (call c)
      fun value s => Writing i owned_session_ids s ∧ K value s.1.engine := by
  refine Rules.Outline.lift (fun answer => ?_) fun s choice answer t hs hwriting _ hexec => ?_
  · cases answer with
    | ok value => exact stable_known (hstable value)
    | error e => exact stable_writing
  · obtain ⟨hkept, hleaves, hwriting', hanswer, hengine⟩ := keeps_docker hs hwriting hshrinking
      (fun removal hmem => Or.inl (safe_of_look hcontainer hvolume hmem)) hexec
    refine ⟨hkept, hleaves, ?_⟩
    cases answer with
    | ok value =>
      refine ⟨hwriting', ?_⟩
      rw [hengine]
      exact hfound _ choice value hanswer.symm
    | error e => exact hwriting'

end Cleans

variable {reviewed : CleanupResourceIdentity}

/-- What passes the comparison. -/
theorem of_validate_reviewed_resource {current_resource_id : Text} {labels : Labels} {expected_role : String}
    (h : validate_reviewed_resource current_resource_id labels reviewed expected_role = .ok ()) :
    reviewed.resource_id ≠ [] ∧ current_resource_id = reviewed.resource_id
      ∧ is_managed_role labels expected_role = true ∧ labels[LABEL_SESSION_ID]? = reviewed.session_id := by
  unfold validate_reviewed_resource at h
  split at h
  · cases h
  · rename_i hno
    simp only [not_or, not_not] at hno
    exact hno

/-- An attempt at a removal, whose resource is known. -/
theorem cleans_attempt (c : Docker.Call) {K : Engine → Prop} {operation : Operation Unit}
    {result : c.Answer → Except AgentHostError (Except AgentHostError Unit)} (hshrinking : Shrinking c)
    (hoperation : docker (attempt operation) = ExceptT.mk (.call (.docker c) fun r => .ret (result r)))
    (hresult : ∀ r, ∃ value, result r = .ok value)
    (hsafe : ∀ (s : World × List Removal) (r : c.Answer), s.1.sessions = owned_session_ids →
      K s.1.engine → ∀ removal ∈ record i (.docker c) r s.1 s.2, removal ∈ s.2
        ∨ removal.thread = i ∧ Safe (requests i).reviewed removal) :
    Cleans requests i owned_session_ids (fun s => Writing i owned_session_ids s ∧ K s.1.engine)
      (attempt operation) fun _ => Writing i owned_session_ids := by
  rw [Cleans, Rules.Ensures, hoperation]
  refine ⟨fun _ => Writing i owned_session_ids, fun _ => stable_writing, ?_, fun r s _ hs => ?_⟩
  rotate_left
  · obtain ⟨value, hvalue⟩ := hresult r
    rw [hvalue]
    exact hs
  intro s choice r t hs hP _ hexec
  obtain ⟨hkept, hleaves, hwriting, -, -⟩ := keeps_docker hs hP.1 hshrinking
    (hsafe s r hP.1.sessions hP.2) hexec
  exact ⟨hkept, hleaves, hwriting⟩

/-- A container that has been reviewed and compared. -/
theorem cleans_remove_container
    {found : Option DockerContainerResource} (hkind : reviewed.kind = .KernelContainer)
    (hmem : reviewed ∈ (requests i).reviewed)
    (hunowned : ∀ session_id ∈ reviewed.session_id, session_id ∉ owned_session_ids) :
    Cleans requests i owned_session_ids
      (fun s => Writing i owned_session_ids s ∧ OnlyContainer reviewed.name found s.1.engine)
      (and_then (validate_reviewed_container found reviewed) (call (.remove_container reviewed.name)))
      fun _ => Writing i owned_session_ids := by
  cases hvalid : validate_reviewed_container found reviewed with
  | error e => exact Cleans.pure fun _ hs => hs.1
  | ok u =>
    refine cleans_attempt (.remove_container reviewed.name) trivial rfl (fun r => ⟨r, rfl⟩)
      fun s r hsessions hknown removal hremoval => ?_
    rcases mem_record hremoval with hold | ⟨hthread, hremoved, hwhich⟩
    · exact Or.inl hold
    rcases hwhich with ⟨container, hc, hcontainer, hresource⟩ | ⟨volume, hc, -⟩
    · have hname : reviewed.name = container.name :=
        Docker.Call.remove_container.inj (Call.docker.inj hc)
      have hfound := hknown container hcontainer hname.symm
      rw [hfound] at hvalid
      obtain ⟨hempty, hid, hmanaged, hsession⟩ := of_validate_reviewed_resource hvalid
      refine Or.inr ⟨hthread, ⟨reviewed, hmem, ?_⟩, ?_⟩
      · rw [hresource]
        exact ⟨⟨fun _ => hkind, fun _ => rfl⟩, hname.symm, hid, hempty, hkind ▸ hmanaged, hsession⟩
      · rw [hresource, hremoved, hsessions, hsession]
        exact hunowned
    · cases hc

/-- A volume that has been reviewed and compared. -/
theorem cleans_remove_volume
    {found : Option DockerVolumeResource} (hkind : reviewed.kind ≠ .KernelContainer)
    (hmem : reviewed ∈ (requests i).reviewed)
    (hunowned : ∀ session_id ∈ reviewed.session_id, session_id ∉ owned_session_ids) :
    Cleans requests i owned_session_ids
      (fun s => Writing i owned_session_ids s ∧ OnlyVolume reviewed.name found s.1.engine)
      (and_then (validate_reviewed_volume found reviewed reviewed.kind) (call (.remove_volume reviewed.name)))
      fun _ => Writing i owned_session_ids := by
  cases hvalid : validate_reviewed_volume found reviewed reviewed.kind with
  | error e => exact Cleans.pure fun _ hs => hs.1
  | ok u =>
    refine cleans_attempt (.remove_volume reviewed.name) trivial rfl (fun r => ⟨r, rfl⟩)
      fun s r hsessions hknown removal hremoval => ?_
    rcases mem_record hremoval with hold | ⟨hthread, hremoved, hwhich⟩
    · exact Or.inl hold
    rcases hwhich with ⟨container, hc, -⟩ | ⟨volume, hc, hvolume, hresource⟩
    · cases hc
    · have hname : reviewed.name = volume.name := Docker.Call.remove_volume.inj (Call.docker.inj hc)
      have hfound := hknown volume hvolume hname.symm
      have hvalid' : validate_reviewed_resource volume.resource_id volume.labels reviewed
          reviewed.kind.role = .ok () := by
        rw [hfound] at hvalid
        cases hk : reviewed.kind with
        | KernelContainer => exact absurd hk hkind
        | SessionWorkspaceVolume | SessionTelemetryVolume =>
          rw [hk] at hvalid
          exact hvalid
      obtain ⟨hempty, hid, hmanaged, hsession⟩ := of_validate_reviewed_resource hvalid'
      refine Or.inr ⟨hthread, ⟨reviewed, hmem, ?_⟩, ?_⟩
      · rw [hresource]
        exact ⟨⟨fun h => absurd h Bool.false_ne_true, fun h => absurd h hkind⟩, hname.symm, hid, hempty,
          hmanaged, hsession⟩
      · rw [hresource, hremoved, hsessions, hsession]
        exact hunowned

theorem cleans_inspect_container (name : Text) :
    Cleans requests i owned_session_ids (Writing i owned_session_ids) (call (.inspect_container name))
      fun found s => Writing i owned_session_ids s ∧ OnlyContainer name found s.1.engine := by
  refine Cleans.look trivial (fun _ h => by cases h) (fun _ h => by cases h)
    (fun _ _ _ => OnlyContainer.shrink) fun s choice found hanswer => ?_
  unfold Engine.exec at hanswer ⊢
  cases hfails : choice.fails with
  | some detail =>
    rw [hfails] at hanswer
    cases hanswer
  | none =>
    rw [hfails] at hanswer
    have hget : (s.without_exited choice.exited).containers.get name = found := Except.ok.inj hanswer
    intro container hmem hname
    rw [← hget]
    exact Table.get_eq_some_iff.2 ⟨hmem, hname⟩

theorem cleans_inspect_volume (name : Text) :
    Cleans requests i owned_session_ids (Writing i owned_session_ids) (call (.inspect_volume name))
      fun found s => Writing i owned_session_ids s ∧ OnlyVolume name found s.1.engine := by
  refine Cleans.look trivial (fun _ h => by cases h) (fun _ h => by cases h)
    (fun _ _ _ => OnlyVolume.shrink) fun s choice found hanswer => ?_
  unfold Engine.exec at hanswer ⊢
  cases hfails : choice.fails with
  | some detail =>
    rw [hfails] at hanswer
    cases hanswer
  | none =>
    rw [hfails] at hanswer
    have hget : s.volumes.get name = found := Except.ok.inj hanswer
    intro volume hmem hname
    rw [← hget]
    exact Table.get_eq_some_iff.2 ⟨hmem, hname⟩

theorem cleans_list {c : Docker.Call} (h : c = .list_containers ∨ c = .list_volumes) :
    Cleans requests i owned_session_ids (Writing i owned_session_ids) (call c)
      fun _ => Writing i owned_session_ids := by
  have hlook : Cleans requests i owned_session_ids (Writing i owned_session_ids) (call c)
      fun _ s => Writing i owned_session_ids s ∧ True := by
    rcases h with rfl | rfl
    · exact Cleans.look (c := .list_containers) (K := fun _ _ => True) trivial (fun _ h => by cases h)
        (fun _ h => by cases h) (fun _ _ _ _ _ => trivial) fun _ _ _ _ => trivial
    · exact Cleans.look (c := .list_volumes) (K := fun _ _ => True) trivial (fun _ h => by cases h)
        (fun _ h => by cases h) (fun _ _ _ _ _ => trivial) fun _ _ _ _ => trivial
  exact .weaken hlook fun _ _ _ h => h.1

theorem cleans_delete_reviewed_orphan (hmem : reviewed ∈ (requests i).reviewed) :
    Cleans requests i owned_session_ids (Writing i owned_session_ids)
      (delete_reviewed_orphan owned_session_ids reviewed) fun _ => Writing i owned_session_ids := by
  unfold delete_reviewed_orphan
  by_cases howned : ∃ session_id ∈ reviewed.session_id, session_id ∈ owned_session_ids
  · rw [if_pos howned]
    exact Cleans.pure fun _ hs => hs
  · rw [if_neg howned]
    have hunowned : ∀ session_id ∈ reviewed.session_id, session_id ∉ owned_session_ids :=
      fun session_id hsession hin => howned ⟨session_id, hsession, hin⟩
    have hvolume : reviewed.kind ≠ .KernelContainer →
        Cleans requests i owned_session_ids (Writing i owned_session_ids) (do
          let current ← call (.inspect_volume reviewed.name)
          let result ← and_then (validate_reviewed_volume current reviewed reviewed.kind)
            (call (.remove_volume reviewed.name))
          pure (cleanup_resource reviewed.kind reviewed.name reviewed.resource_id
            ((current.map DockerVolumeResource.labels).getD ∅) none false result))
          fun _ => Writing i owned_session_ids := by
      intro hkind
      refine Cleans.bind (cleans_inspect_volume _) fun found => ?_
      exact Cleans.bind (cleans_remove_volume hkind hmem hunowned) fun _ => Cleans.pure fun _ hs => hs
    cases hkind : reviewed.kind with
    | KernelContainer =>
      refine Cleans.bind (cleans_inspect_container _) fun found => ?_
      exact Cleans.bind (cleans_remove_container hkind hmem hunowned) fun _ =>
        Cleans.pure fun _ hs => hs
    | SessionWorkspaceVolume | SessionTelemetryVolume =>
      rw [hkind] at hvolume
      exact hvolume (by decide)

theorem cleans_delete_each {reviewed : List CleanupResourceIdentity}
    (hmem : ∀ identity ∈ reviewed, identity ∈ (requests i).reviewed) :
    Cleans requests i owned_session_ids (Writing i owned_session_ids)
      (delete_each owned_session_ids reviewed) fun _ => Writing i owned_session_ids := by
  induction reviewed with
  | nil => exact Cleans.pure fun _ hs => hs
  | cons identity reviewed ih =>
    refine Cleans.bind (cleans_delete_reviewed_orphan (hmem _ List.mem_cons_self)) fun _ => ?_
    refine Cleans.bind (ih fun other hother => hmem _ (List.mem_cons_of_mem _ hother)) fun _ => ?_
    exact Cleans.pure fun _ hs => hs

theorem mem_btree_set {identity : CleanupResourceIdentity} {identities : List CleanupResourceIdentity} :
    identity ∈ btree_set identities ↔ identity ∈ identities := by
  rw [btree_set, List.mem_mergeSort, List.mem_dedup]

/-- **A cleanup.** What it removes is safe to remove. -/
theorem cleans_cleanup_orphans {dry_run : Bool} {reviewed : Option (List CleanupResourceIdentity)}
    (hrequest : requests i = .cleanup_runtime dry_run reviewed) :
    Cleans requests i owned_session_ids (Writing i owned_session_ids)
      (cleanup_orphans owned_session_ids dry_run reviewed) fun _ => Writing i owned_session_ids := by
  unfold cleanup_orphans
  cases dry_run with
  | true =>
    refine Cleans.bind (cleans_list (Or.inl rfl)) fun _ => ?_
    refine Cleans.bind (cleans_list (Or.inr rfl)) fun _ => ?_
    refine Cleans.bind (cleans_list (Or.inr rfl)) fun _ => ?_
    exact Cleans.pure fun _ hs => hs
  | false =>
    cases reviewed with
    | none => exact Cleans.throw fun _ hs => hs
    | some reviewed =>
      have hreviewed : (requests i).reviewed = reviewed := by
        rw [hrequest]
        rfl
      show Cleans _ _ _ _ (delete_reviewed_orphans owned_session_ids reviewed) _
      have hfail : ∀ (condition : Prop) [Decidable condition] (e : AgentHostError),
          Cleans requests i owned_session_ids (Writing i owned_session_ids) (fail_if condition e)
            fun _ => Writing i owned_session_ids := by
        intro condition _ e
        unfold fail_if
        by_cases h : condition
        · rw [if_pos h]
          exact Cleans.throw fun _ hs => hs
        · rw [if_neg h]
          exact Cleans.pure fun _ hs => hs
      refine Cleans.bind (hfail _ _) fun _ => ?_
      refine Cleans.bind (cleans_delete_each fun identity hidentity => ?_) fun _ => ?_
      · rw [hreviewed]
        exact mem_btree_set.1 hidentity
      · exact Cleans.pure fun _ hs => hs

end Cleanup

theorem keeps_gate_write {r : Call.gate_write.Answer}
    (hs : Kept requests s) (hexec : (rules requests).exec i .gate_write choice s = some (r, t)) :
    Kept requests t ∧ Leaves i s t ∧ t.1.writer = some i := by
  obtain ⟨hexec, hrecord⟩ := step_and_record hexec
  have hremovals : t.2 = s.2 := hrecord
  have hstep : (if s.1.writer = none ∧ s.1.readers = ∅ then some ((), { s.1 with writer := some i })
      else none) = some (r, t.1) := hexec
  by_cases hfree : s.1.writer = none ∧ s.1.readers = ∅
  · rw [if_pos hfree] at hstep
    obtain ⟨-, hworld⟩ := Prod.mk.inj (Option.some.inj hstep)
    refine ⟨⟨fun _ => ?_, fun removal hmem => hs.safe removal (hremovals ▸ hmem)⟩,
      ⟨fun j _ hj => ?_, fun j _ hj => ?_⟩, ?_⟩
    · rw [← hworld]
      exact hfree.2
    · rw [← hworld]
      exact hj
    · rw [hfree.1] at hj
      cases hj
    · rw [← hworld]
  · rw [if_neg hfree] at hstep
    cases hstep

/-- A writer lets go of the gate. -/
theorem keeps_release_write
    {r : Call.release_write.Answer} (hs : Kept requests s) (hwriter : s.1.writer = some i)
    (hexec : (rules requests).exec i .release_write choice s = some (r, t)) :
    Kept requests t ∧ Leaves i s t := by
  obtain ⟨hexec, hrecord⟩ := step_and_record hexec
  obtain ⟨-, hworld⟩ := Prod.mk.inj (Option.some.inj hexec)
  have hremovals : t.2 = s.2 := hrecord
  refine ⟨⟨fun h => absurd ?_ h, fun removal hmem => hs.safe removal (hremovals ▸ hmem)⟩,
    ⟨fun j _ hj => ?_, fun j hj hother => ?_⟩⟩
  · rw [← hworld]
  · rw [← hworld]
    exact hj
  · rw [hwriter] at hother
    exact absurd (Option.some.inj hother).symm hj

/-- A thread that writes the gate. -/
def Holding (i : ℕ) (s : World × List Removal) : Prop := s.1.writer = some i

theorem stable_holding : (rules requests).Stable i (Holding i) := by
  intro j hj s t _ _ hwriter hleaves
  exact (hleaves.writer i (Ne.symm hj) hwriter).1

theorem ensures_list_sessions :
    (rules requests).Ensures i (Holding i) (ExceptT.mk (Prog.lift Call.list_sessions))
      (fun owned_session_ids => Writing i owned_session_ids) fun _ => Holding i := by
  refine Rules.Outline.lift (fun answer => ?_) fun s choice answer t hs hholding _ hexec => ?_
  · cases answer with
    | ok owned_session_ids => exact stable_writing
    | error e => exact stable_holding
  · obtain ⟨hexec, hrecord⟩ := step_and_record hexec
    have hstep : store choice s.1 s.1.sessions s.1 = (answer, t.1) := Option.some.inj hexec
    have ht : t.1 = s.1 ∧ ∀ owned_session_ids, answer = .ok owned_session_ids →
        s.1.sessions = owned_session_ids := by
      unfold store at hstep
      cases hfails : choice.fails with
      | some detail =>
        rw [hfails] at hstep
        obtain ⟨hanswer, hworld⟩ := Prod.mk.inj hstep
        exact ⟨hworld.symm, fun _ h => by rw [← hanswer] at h; cases h⟩
      | none =>
        rw [hfails] at hstep
        obtain ⟨hanswer, hworld⟩ := Prod.mk.inj hstep
        exact ⟨hworld.symm, fun _ h => by rw [← hanswer] at h; exact Except.ok.inj h⟩
    have hlocks : t = ({ s.1 with locks := s.1.locks }, s.2) := Prod.ext ht.1 hrecord
    refine ⟨(keeps_locks (i := i) hs hlocks).1, (keeps_locks hs hlocks).2, ?_⟩
    cases answer with
    | ok owned_session_ids =>
      refine ⟨?_, ?_⟩
      · rw [ht.1]
        exact hholding
      · rw [ht.1]
        exact ht.2 _ rfl
    | error e =>
      show t.1.writer = some i
      rw [ht.1]
      exact hholding

/-- **Cleanup.** The handler of a cleanup keeps the rules. -/
theorem outline_cleanup_runtime {dry_run : Bool} {reviewed : Option (List CleanupResourceIdentity)}
    (hrequest : requests i = .cleanup_runtime dry_run reviewed) :
    (rules requests).Outline i (fun _ => True) (Request.program (.cleanup_runtime dry_run reviewed))
      fun _ _ => True := by
  have hhandler : (rules requests).Ensures i (Holding i) (cleanup_runtime dry_run reviewed)
      (fun _ => Holding i) fun _ => Holding i := by
    unfold cleanup_runtime
    by_cases hmissing : ¬dry_run = true ∧ reviewed = none
    · rw [if_pos hmissing]
      exact .throw fun _ _ hs => hs
    · rw [if_neg hmissing]
      refine .bind ensures_list_sessions fun owned_session_ids => ?_
      have hcleans : Cleans requests i owned_session_ids (Writing i owned_session_ids)
          (cleanup_orphans owned_session_ids dry_run reviewed) fun _ => Writing i owned_session_ids :=
        cleans_cleanup_orphans hrequest
      refine Rules.Outline.bind hcleans fun answer => ?_
      cases answer with
      | ok report | error e => exact fun _ _ hs => hs.writer
  refine Rules.Outline.bind (Q := fun _ => Holding i)
    (Rules.Outline.lift (fun _ => stable_holding) ?_) fun _ => ?_
  · exact fun s choice r t hs _ _ hexec => keeps_gate_write hs hexec
  refine Rules.Outline.bind (Q := fun _ => Holding i) (Rules.Outline.weaken hhandler ?_) fun _ => ?_
  · intro answer s _ h
    cases answer with
    | ok report => exact h
    | error e => exact h
  refine Rules.Outline.bind (Q := fun _ _ => True)
    (Rules.Outline.lift (fun _ => stable_true) ?_) fun _ => fun _ _ _ => trivial
  intro s choice r t hs hholding _ hexec
  obtain ⟨hkept, hleaves⟩ := keeps_release_write hs hholding hexec
  exact ⟨hkept, hleaves, trivial⟩

end Rules

/-! ## Runs -/

/-- Threads over both services. -/
abbrev Runs := Threads ℕ Call (Except AgentHostError (Option CleanupReport)) (World × List Removal)
  Call.Answer

/-- No request has begun: the gate is free, and nothing has been removed. -/
def start (requests : ℕ → Request) (sessions : Finset Text) (engine : Engine)
    (locks : Text → Option ℕ) : Runs :=
  ⟨(⟨sessions, engine, none, ∅, locks⟩, []), fun i => (requests i).program⟩

/-- **Safety.** In every interleaving of requests, a cleanup removes only what it has
reviewed and what is of no session in the store at that moment. -/
theorem removals_are_safe (requests : ℕ → Request) (sessions : Finset Text) (engine : Engine)
    (locks : Text → Option ℕ) {moves : List (Move ℕ Choice)} {t : Runs}
    (hrun : Run (Advance (with_history exec record)) (start requests sessions engine locks) moves t) :
    ∀ removal ∈ t.state.2, (requests removal.thread).IsCleanup →
      Safe (requests removal.thread).reviewed removal := by
  have hstart : Rules.Outlined (rules requests) (fun _ _ _ => True)
      (start requests sessions engine locks) := by
    refine ⟨⟨fun _ => rfl, fun removal hmem => by cases hmem⟩, fun i =>
      ⟨fun _ => True, stable_true, trivial, ?_⟩⟩
    show (rules requests).Outline i _ (requests i).program _
    cases hrequest : requests i with
    | lifecycle session_id body h =>
      exact outline_lifecycle h (by rw [hrequest]; exact id)
    | cleanup_runtime dry_run reviewed => exact outline_cleanup_runtime hrequest
  have hrun' : Run (Guarded (Advance (rules requests).exec) (rules requests).Allowed)
      (start requests sessions engine locks) moves t :=
    hrun.mono fun _ _ _ hstep => ⟨hstep, fun _ _ _ => trivial⟩
  exact (hstart.run hrun').1.invariant.safe

end AgentSpace.Docker.Gate
