/-
What the calls of the terminal service do to the leases.

Reconciling a session is the only thing that drops leases behind a check, and it drops
leases of that session only. Other calls change the table at one key.
-/
import AgentSpace.Terminal.Leases

set_option autoImplicit false

namespace AgentSpace.TerminalService

open Text Lib

/-! ## A terminal -/

/-- A running terminal with its clients, whose container stops after so many requests. -/
structure Tmux where
  clients : List TerminalClient
  requests : ℕ

namespace Tmux

/-- A request, while the container runs. -/
def request {α : Type} (f : List TerminalClient → α × List TerminalClient) (tmux : Tmux) :
    Except AgentHostError α × Tmux :=
  match tmux.requests with
  | 0 => (.error (.UpstreamUnavailable "container is not running".toList), tmux)
  | requests + 1 => (.ok (f tmux.clients).1, ⟨(f tmux.clients).2, requests⟩)

/-- The status of the terminal with these clients. -/
def observed (clients : List TerminalClient) : TerminalStatus :=
  ⟨.Running, some .Attached, ["tmux".toList, "attach".toList], clients.length, clients⟩

/-- The terminal as the service meets it: a client is named by its attachment. -/
def runtime : KernelRuntime Tmux where
  terminal_status := request fun clients => (observed clients, clients)
  terminal_detach_client client_id := request fun clients =>
    let left := clients.filter fun client => client.id ≠ client_id
    (observed left, left)
  terminal_attach attachment_id _ := request fun clients =>
    ("exec-".toList ++ attachment_id,
      clients ++ [⟨"/dev/pts/".toList ++ attachment_id, some attachment_id⟩])
  terminal_resize _ _ _ := request fun clients => ((), clients)

/-- The service with these leases beside the terminal. -/
def world (leases : List AttachmentLease) (clients : List TerminalClient) (requests : ℕ) : World Tmux :=
  ⟨leases.foldl (fun table lease => table.insert lease.attachment_id lease) ∅, [], ⟨clients, requests⟩⟩

/-- A lease with these ids. -/
def lease (attachment_id session_id : String) (tmux_client_id : Option String) : AttachmentLease :=
  { new_lease session_id.toList attachment_id.toList ("exec-".toList ++ attachment_id.toList) with
    tmux_client_id := tmux_client_id.map String.toList }

/-- A client in the exec of an attachment, beside the one the attachment was made with,
which is gone. -/
def nested : World Tmux :=
  world [lease "1" "a" (some "/dev/pts/1")] [⟨"/dev/pts/2".toList, some "1".toList⟩] 1

/-- The client of an attachment that is being made. -/
def starting : World Tmux :=
  world [lease "1" "a" none] [⟨"/dev/pts/1".toList, some "1".toList⟩] 1

end Tmux

section Calls

variable {κ : Type} {runtime : KernelRuntime κ} {session_id : Text} {w w' : World κ}

/-! ## The table behind each step -/

theorem run_kernel {α : Type} (f : κ → Except AgentHostError α × κ) (w : World κ) :
    (kernel f).run w = ((f w.kernel).1, { w with kernel := (f w.kernel).2 }) := rfl

theorem attachments_kernel {α : Type} {f : κ → Except AgentHostError α × κ} {r : Except AgentHostError α}
    (h : (kernel f).run w = (r, w')) : w'.attachments = w.attachments := by
  rw [run_kernel] at h
  obtain ⟨-, hw'⟩ := Prod.mk.inj h
  rw [← hw']

variable {r : Except AgentHostError TerminalStatus}

theorem attachments_detach_stale {ids : List Text} {status : TerminalStatus}
    (h : (detach_stale runtime status ids).run w = (r, w')) : w'.attachments = w.attachments := by
  induction ids generalizing status w with
  | nil => exact congrArg World.attachments (congrArg Prod.snd h).symm
  | cons client_id rest ih =>
    rw [detach_stale] at h
    rcases Effect.run_bind_cases h with ⟨answer, w₁, hattempt, h⟩ | ⟨e, hfail, -⟩
    · rw [Effect.run_attempt, run_kernel] at hattempt
      obtain ⟨-, hw₁⟩ := Prod.mk.inj hattempt
      have hw₁ : w₁.attachments = w.attachments := by rw [← hw₁]
      rcases answer with (attachment_id | message | message | message) | observed
      · dsimp only at h
        rcases Effect.run_bind_cases h with ⟨observed, w₂, hstatus, h⟩ | ⟨e, hfail, -⟩
        · rw [ih h, attachments_kernel hstatus, hw₁]
        · rw [attachments_kernel hfail, hw₁]
      · rw [← hw₁]
        exact congrArg World.attachments (congrArg Prod.snd h).symm
      · rw [← hw₁]
        exact congrArg World.attachments (congrArg Prod.snd h).symm
      · rw [← hw₁]
        exact congrArg World.attachments (congrArg Prod.snd h).symm
      · rw [ih h, hw₁]
    · cases hfail

/-- The leases that are left when these are phantoms, and the terminal is in this state. -/
def remaining (session_id : Text) (state : TerminalState) (phantoms : List Text)
    (lease : Option AttachmentLease) : Option AttachmentLease :=
  if state = .Running then lease.filter fun lease => !is_phantom session_id phantoms lease else lease

theorem is_phantom_nil (lease : AttachmentLease) : is_phantom session_id [] lease = false := by
  simp [is_phantom]

/-- **Reconciling** with a status: an error leaves the table, and otherwise the leases
whose client was not observed at last are gone from a running terminal. -/
theorem run_reconcile_status {status : TerminalStatus}
    (h : (reconcile_status_locked runtime session_id status).run w = (r, w')) :
    (∃ e, r = .error e ∧ w'.attachments = w.attachments)
      ∨ ∃ observed w₁, (detach_stale runtime status
            (stale_clients (active_leases session_id w.attachments) status.clients)).run w
          = (.ok observed, w₁)
        ∧ r = .ok { observed with attachment_count := observed.clients.length }
        ∧ w'.kernel = w₁.kernel
        ∧ ∀ id : Text, w'.attachments[id]? = remaining session_id observed.state
            (phantom_ids (active_leases session_id w.attachments) observed.clients) w.attachments[id]? := by
  unfold reconcile_status_locked at h
  rw [Effect.run_bind_of_ok (Effect.run_read _ _)] at h
  rcases Effect.run_bind_cases h with ⟨observed, w₁, hdetach, h⟩ | ⟨e, hfail, hr⟩
  · have hw₁ := attachments_detach_stale hdetach
    refine Or.inr ⟨observed, w₁, hdetach, ?_⟩
    dsimp only at h
    by_cases hdrop : observed.state = .Running
        ∧ phantom_ids (active_leases session_id w.attachments) observed.clients ≠ []
    · rw [if_pos hdrop, drop_phantoms, Effect.run_bind_of_ok (Effect.run_change _ _)] at h
      obtain ⟨hr, hw'⟩ := Prod.mk.inj h
      refine ⟨hr.symm, by rw [← hw'], fun id => ?_⟩
      rw [← hw']
      dsimp only
      rw [remaining, if_pos hdrop.1, Std.ExtTreeMap.getElem?_filter', hw₁]
    · rw [if_neg hdrop] at h
      obtain ⟨hr, hw'⟩ := Prod.mk.inj h
      refine ⟨hr.symm, by rw [← hw'], fun id => ?_⟩
      rw [← hw', hw₁]
      unfold remaining
      split_ifs with hrunning
      · have hnone := not_not.1 fun hne => hdrop ⟨hrunning, hne⟩
        rw [hnone]
        cases w.attachments[id]? with
        | none => rfl
        | some lease => simp [Option.filter, is_phantom_nil]
      · rfl
  · exact Or.inl ⟨e, hr, attachments_detach_stale hfail⟩

/-- The leases of other sessions are the same in both tables. -/
def SameOutside (session_id : Text) (before after : Leases) : Prop :=
  ∀ (id : Text) lease, lease.session_id ≠ session_id →
    (after[id]? = some lease ↔ before[id]? = some lease)

theorem SameOutside.refl (session_id : Text) (table : Leases) : SameOutside session_id table table :=
  fun _ _ _ => Iff.rfl

theorem SameOutside.trans {a b c : Leases} (h : SameOutside session_id a b) (h' : SameOutside session_id b c) :
    SameOutside session_id a c :=
  fun id lease hother => (h' id lease hother).trans (h id lease hother)

theorem remaining_eq_some {state : TerminalState} {phantoms : List Text} {found : Option AttachmentLease}
    {lease : AttachmentLease} : remaining session_id state phantoms found = some lease ↔
      found = some lease ∧ (state = .Running → is_phantom session_id phantoms lease = false) := by
  unfold remaining
  split_ifs with hrunning
  · rw [Option.filter_eq_some_iff]
    simp [hrunning]
  · simp [hrunning]

/-- **Reconciling a session** leaves the leases of the others. -/
theorem reconcile_sameOutside (h : (reconcile_locked runtime session_id).run w = (r, w')) :
    SameOutside session_id w.attachments w'.attachments := by
  unfold reconcile_locked at h
  rcases Effect.run_bind_cases h with ⟨status, w₁, hstatus, h⟩ | ⟨e, hfail, -⟩
  · have hw₁ := attachments_kernel hstatus
    rcases run_reconcile_status h with ⟨e, -, hw'⟩ | ⟨observed, w₂, -, -, -, hget⟩
    · rw [hw', hw₁]
      exact SameOutside.refl _ _
    · intro id lease hother
      rw [hget, remaining_eq_some, hw₁]
      refine and_iff_left_of_imp fun _ _ => ?_
      simp [is_phantom, hother]
  · rw [attachments_kernel hfail]
    exact SameOutside.refl _ _

theorem attachments_reconcile_error {e : AgentHostError}
    (h : (reconcile_locked runtime session_id).run w = (.error e, w')) :
    w'.attachments = w.attachments := by
  unfold reconcile_locked at h
  rcases Effect.run_bind_cases h with ⟨status, w₁, hstatus, h⟩ | ⟨e, hfail, -⟩
  · rcases run_reconcile_status h with ⟨e, -, hw'⟩ | ⟨observed, w₂, -, hr, -⟩
    · rw [hw', attachments_kernel hstatus]
    · cases hr
  · exact attachments_kernel hfail

/-! ## Detaching -/

/-- A computation that leaves the leases of other sessions, however it ends. -/
def Confined {α : Type} (session_id : Text) (x : Call κ α) : Prop :=
  ∀ w, SameOutside session_id w.attachments (x.run w).2.attachments

section Confined

variable {α β : Type}

theorem Confined.bind {x : Call κ α} {f : α → Call κ β} (hx : Confined session_id x)
    (hf : ∀ a, Confined session_id (f a)) : Confined session_id (x >>= f) := by
  intro w
  have hfirst := hx w
  rw [Effect.run_bind]
  rcases hrun : x.run w with ⟨e | a, w₁⟩
  · rw [hrun] at hfirst
    exact hfirst
  · rw [hrun] at hfirst
    exact hfirst.trans (hf a w₁)

theorem Confined.of_attachments {x : Call κ α} (h : ∀ w, (x.run w).2.attachments = w.attachments) :
    Confined session_id x := by
  intro w
  rw [h w]
  exact SameOutside.refl _ _

theorem confined_reconcile (runtime : KernelRuntime κ) (session_id : Text) :
    Confined session_id (reconcile_locked runtime session_id) := by
  intro w
  exact reconcile_sameOutside rfl

end Confined

/-- What `detach` does once it has taken out a lease of the session. -/
theorem confined_detached (runtime : KernelRuntime κ) (session_id attachment_id : Text)
    (tmux_client_id : Option Text) : Confined session_id (do
      match tmux_client_id with
      | some client_id =>
        match ← Effect.attempt (kernel (runtime.terminal_detach_client client_id)) with
        | .ok _ => pure ()
        | .error (.TerminalAttachmentNotFound _) => pure ()
        | .error error => throw error
      | none => pure ()
      send attachment_id none
      let _ ← reconcile_locked runtime session_id
      return () : Call κ Unit) := by
  have hsent : Confined session_id (do
      send attachment_id none
      let _ ← reconcile_locked runtime session_id
      return () : Call κ Unit) :=
    Confined.bind (Confined.of_attachments fun _ => rfl) fun _ =>
      Confined.bind (confined_reconcile runtime session_id) fun _ => Confined.of_attachments fun _ => rfl
  cases tmux_client_id with
  | none => exact hsent
  | some client_id =>
    refine Confined.bind (Confined.of_attachments fun _ => rfl) fun answer => ?_
    rcases answer with (attachment_id | message | message | message) | observed
    · exact hsent
    · exact Confined.of_attachments fun _ => rfl
    · exact Confined.of_attachments fun _ => rfl
    · exact Confined.of_attachments fun _ => rfl
    · exact hsent

/-- **Detaching an attachment** leaves the leases of other sessions exactly if the id is
that of a lease of the session, or of none. -/
theorem detach_confined_iff (runtime : KernelRuntime κ) (session_id attachment_id : Text) (w : World κ) :
    SameOutside session_id w.attachments ((detach runtime session_id attachment_id).run w).2.attachments
      ↔ ∀ lease, w.attachments[attachment_id]? = some lease → lease.session_id = session_id := by
  have herase : ∀ id : Text, (w.attachments.erase attachment_id)[id]?
      = if attachment_id = id then none else w.attachments[id]? := by
    intro id
    rw [Std.ExtTreeMap.getElem?_erase]
    simp only [Std.LawfulEqCmp.compare_eq_iff_eq]
  have hremoved : (remove_attachment attachment_id).run w
      = (.ok w.attachments[attachment_id]?, { w with attachments := w.attachments.erase attachment_id }) := rfl
  -- taking out a lease of the session, or none, touches no other session
  have herased : (∀ lease, w.attachments[attachment_id]? = some lease → lease.session_id = session_id) →
      SameOutside session_id w.attachments (w.attachments.erase attachment_id) := by
    intro hown id lease hother
    rw [herase]
    split_ifs with heq
    · rw [← heq]
      exact iff_of_false (nomatch ·) fun h => hother (hown lease h)
    · rfl
  unfold detach
  rw [Effect.run_bind_of_ok hremoved]
  cases hlease : w.attachments[attachment_id]? with
  | none =>
    rw [hlease] at herased
    exact iff_of_true (herased fun _ h => nomatch h) fun _ h => nomatch h
  | some lease =>
    rw [hlease] at herased
    by_cases hown : lease.session_id = session_id
    · have hcondition : ∀ other, some lease = some other → other.session_id = session_id := by
        intro other heq
        rw [← Option.some.inj heq, hown]
      have hfilter : (some lease).filter (fun lease => lease.session_id = session_id) = some lease := by
        simp [Option.filter, hown]
      rw [hfilter]
      exact iff_of_true ((herased hcondition).trans
        (confined_detached runtime session_id attachment_id lease.tmux_client_id _)) hcondition
    · have hfilter : (some lease).filter (fun lease => lease.session_id = session_id) = none := by
        simp [Option.filter, hown]
      rw [hfilter]
      refine iff_of_false (fun hsame => ?_) fun h => hown (h lease rfl)
      have hgone : (w.attachments.erase attachment_id)[attachment_id]? = some lease :=
        (hsame attachment_id lease hown).2 hlease
      rw [herase, if_pos rfl] at hgone
      cases hgone

/-- A session detaches the attachment of another. -/
theorem detach_not_confined : ¬∀ (session_id attachment_id : Text) (w : World Tmux),
    SameOutside session_id w.attachments
      ((detach Tmux.runtime session_id attachment_id).run w).2.attachments := by
  intro h
  have hsame := h "a".toList "1".toList (Tmux.world [Tmux.lease "1" "b" none] [] 0)
  have hthere := (hsame "1".toList (Tmux.lease "1" "b" none) (by decide)).2 (by rfl)
  exact absurd (congrArg Option.isSome hthere) (by decide +kernel)

/-! ## Attaching -/

/-- No lease is new, and those that are gone are leases of the session with an exec whose
client was not observed. -/
def OnlyStaleDropped (session_id : Text) (observed : List TerminalClient) (before after : Leases) : Prop :=
  ∀ id : Text, after[id]? = before[id]?
    ∨ after[id]? = none ∧ ∃ lease, before[id]? = some lease
      ∧ is_phantom session_id (phantom_ids (active_leases session_id before) observed) lease = true

/-- The table is as it was before a call, up to the stale leases that its first reconciling
may drop. -/
def NoLeaseLeft (runtime : KernelRuntime κ) (session_id : Text) (w w' : World κ) : Prop :=
  match ((reconcile_locked runtime session_id).run w).1 with
  | .error _ => w'.attachments = w.attachments
  | .ok status => OnlyStaleDropped session_id status.clients w.attachments w'.attachments

/-- The client of the new attachment is found. -/
def ClientFound (runtime : KernelRuntime κ) (session_id attachment_id : Text) (looks : ℕ)
    (w : World κ) : Prop :=
  ∃ found w₁, (attach_client runtime session_id attachment_id looks).run w = (.ok found, w₁)

theorem noLeaseLeft_reconcile (runtime : KernelRuntime κ) (session_id : Text) (w : World κ) :
    NoLeaseLeft runtime session_id w ((reconcile_locked runtime session_id).run w).2 := by
  unfold NoLeaseLeft
  rcases hrun : (reconcile_locked runtime session_id).run w with ⟨e | status, w'⟩
  · exact attachments_reconcile_error hrun
  · dsimp only
    unfold reconcile_locked at hrun
    obtain ⟨first, w₁, hstatus, hrun⟩ := Effect.run_bind_ok hrun
    have hw₁ := attachments_kernel hstatus
    rcases run_reconcile_status hrun with ⟨e, hr, -⟩ | ⟨observed, w₂, -, hr, -, hget⟩
    · cases hr
    · rw [hw₁] at hget
      intro id
      rw [hget, Except.ok.inj hr]
      unfold remaining
      split_ifs
      · cases hlease : w.attachments[id]? with
        | none => exact Or.inl rfl
        | some lease =>
          rw [Option.filter_some]
          cases hphantom : is_phantom session_id
              (phantom_ids (active_leases session_id w.attachments) observed.clients) lease with
          | true => exact Or.inr ⟨rfl, lease, rfl, hphantom⟩
          | false => exact Or.inl rfl
      · exact Or.inl rfl

/-- Looking for a client leaves the table. -/
theorem attachments_discover {attachment_id : Text} {looks : ℕ} {r : Except AgentHostError Text}
    (h : (discover_client_locked runtime session_id attachment_id looks).run w = (r, w')) :
    w'.attachments = w.attachments := by
  have hlook : ∀ {w w' : World κ} {r : Except AgentHostError (Option Text)},
      (look_for_client runtime attachment_id).run w = (r, w') → w'.attachments = w.attachments := by
    intro w w' r h
    unfold look_for_client at h
    rcases Effect.run_bind_cases h with ⟨status, w₁, hstatus, h⟩ | ⟨e, hfail, -⟩
    · obtain ⟨-, hw'⟩ := Prod.mk.inj h
      rw [← hw', attachments_kernel hstatus]
    · exact attachments_kernel hfail
  induction looks generalizing w with
  | zero =>
    rw [discover_client_locked] at h
    rcases Effect.run_bind_cases h with ⟨found, w₁, hfound, h⟩ | ⟨e, hfail, -⟩
    · rw [← hlook hfound]
      cases found with
      | none | some client_id => exact congrArg World.attachments (Prod.mk.inj h).2.symm
    · exact hlook hfail
  | succ looks ih =>
    rw [discover_client_locked] at h
    rcases Effect.run_bind_cases h with ⟨found, w₁, hfound, h⟩ | ⟨e, hfail, -⟩
    · rw [← hlook hfound]
      cases found with
      | none =>
        dsimp only at h
        rw [Effect.run_bind_of_ok (Effect.run_read _ _)] at h
        split at h
        · exact ih h
        · exact congrArg World.attachments (Prod.mk.inj h).2.symm
      | some client_id => exact congrArg World.attachments (Prod.mk.inj h).2.symm
    · exact hlook hfail

/-- **Attaching until the client is found**: an error leaves the table that reconciling
left, and otherwise the new lease is in it. -/
theorem attachments_attach_client {attachment_id : Text} {looks : ℕ}
    {r : Except AgentHostError (Option TerminalAttachKind × Text)}
    (hfresh : w.attachments[attachment_id]? = none)
    (h : (attach_client runtime session_id attachment_id looks).run w = (r, w')) :
    match r with
    | .error _ => w'.attachments = ((reconcile_locked runtime session_id).run w).2.attachments
    | .ok _ => ∃ lease, w'.attachments[attachment_id]? = some lease := by
  unfold attach_client at h
  rcases Effect.run_bind_cases h with ⟨observed, w₁, hreconcile, h⟩ | ⟨e, hfail, rfl⟩
  swap
  · dsimp only
    rw [hfail]
  rw [hreconcile]
  dsimp only
  have hfresh₁ : w₁.attachments[attachment_id]? = none := by
    have hstale := noLeaseLeft_reconcile runtime session_id w
    unfold NoLeaseLeft at hstale
    rw [hreconcile] at hstale
    rcases hstale attachment_id with hsame | ⟨hgone, -⟩
    · exact hsame.trans hfresh
    · exact hgone
  split at h
  · obtain ⟨rfl, hw'⟩ := Prod.mk.inj h
    dsimp only
    rw [← hw']
  split at h
  · obtain ⟨rfl, hw'⟩ := Prod.mk.inj h
    dsimp only
    rw [← hw']
  rcases Effect.run_bind_cases h with ⟨exec_id, w₂, hattach, h⟩ | ⟨e, hfail, rfl⟩
  swap
  · exact attachments_kernel hfail
  rcases Effect.run_bind_cases h with ⟨⟨⟩, w₃, hresize, h⟩ | ⟨e, hfail, rfl⟩
  swap
  · dsimp only
    rw [attachments_kernel hfail, attachments_kernel hattach]
  have hw₃ : w₃.attachments = w₁.attachments := by
    rw [attachments_kernel hresize, attachments_kernel hattach]
  rw [change_attachments, Effect.run_bind_of_ok (Effect.run_change _ _)] at h
  rcases Effect.run_bind_cases h with ⟨answer, w₄, hdiscover, h⟩ | ⟨e, hfail, -⟩
  swap
  · cases hfail
  rw [Effect.run_attempt] at hdiscover
  obtain ⟨-, hw₄⟩ := Prod.mk.inj hdiscover
  have hw₄ : w₄.attachments
      = w₃.attachments.insert attachment_id (new_lease session_id attachment_id exec_id) := by
    rw [← hw₄]
    exact attachments_discover rfl
  cases answer with
  | ok client_id =>
    obtain ⟨rfl, hw'⟩ := Prod.mk.inj h
    refine ⟨new_lease session_id attachment_id exec_id, ?_⟩
    rw [← hw', hw₄, Std.ExtTreeMap.getElem?_insert_self]
  | error e =>
    dsimp only at h
    rw [change_attachments, Effect.run_bind_of_ok (Effect.run_change _ _)] at h
    obtain ⟨rfl, hw'⟩ := Prod.mk.inj h
    dsimp only
    rw [← hw']
    dsimp only
    refine Std.ExtTreeMap.ext_getElem? fun id => ?_
    rw [hw₄, hw₃, Std.ExtTreeMap.getElem?_erase, Std.ExtTreeMap.getElem?_insert]
    by_cases heq : compare attachment_id id = .eq
    · rw [if_pos heq, ← Std.LawfulEqCmp.eq_of_compare heq, hfresh₁]
    · rw [if_neg heq, if_neg heq]

/-- **An attachment that fails** leaves no lease behind exactly if its client was not found:
the table is then as it was, up to stale leases. -/
theorem failed_attach_iff (runtime : KernelRuntime κ) (session_id attachment_id : Text) (looks : ℕ)
    (w w' : World κ) (e : AgentHostError) (hfresh : w.attachments[attachment_id]? = none)
    (hrun : (attach runtime session_id attachment_id looks).run w = (.error e, w')) :
    NoLeaseLeft runtime session_id w w' ↔ ¬ClientFound runtime session_id attachment_id looks w := by
  unfold attach at hrun
  rcases Effect.run_bind_cases hrun with ⟨found, w₁, hfound, hrun⟩ | ⟨e, hfail, -⟩
  · -- the client was found: its lease is still there behind the last error
    refine iff_of_false (fun hleft => ?_) (not_not.2 ⟨found, w₁, hfound⟩)
    obtain ⟨lease, hlease⟩ := attachments_attach_client hfresh hfound
    obtain ⟨attach_kind, client_id⟩ := found
    dsimp only at hrun
    rw [change_attachments, Effect.run_bind_of_ok (Effect.run_change _ _)] at hrun
    rcases Effect.run_bind_cases hrun with ⟨status, w₂, -, hrun⟩ | ⟨e, hreconcile, -⟩
    · cases hrun
    have hthere : w'.attachments[attachment_id]?
        = some { lease with tmux_client_id := some client_id } := by
      rw [attachments_reconcile_error hreconcile]
      dsimp only
      rw [Std.ExtTreeMap.getElem?_modify_self, hlease]
      rfl
    unfold NoLeaseLeft at hleft
    split at hleft
    · rw [hleft, hfresh] at hthere
      cases hthere
    · rcases hleft attachment_id with hsame | ⟨hgone, -⟩
      · rw [hsame, hfresh] at hthere
        cases hthere
      · rw [hgone] at hthere
        cases hthere
  · have hw' := attachments_attach_client hfresh hfail
    refine iff_of_true ?_ ?_
    · have hreconciled := noLeaseLeft_reconcile runtime session_id w
      unfold NoLeaseLeft at hreconciled ⊢
      dsimp only at hw'
      rw [hw']
      exact hreconciled
    · rintro ⟨found, w₁, hfound⟩
      rw [hfail] at hfound
      cases hfound

/-- The container stops before the exec of the new attachment is made. -/
theorem failed_attach_before_exec : NoLeaseLeft Tmux.runtime "a".toList (Tmux.world [] [] 1)
      ((attach Tmux.runtime "a".toList "1".toList 0).run (Tmux.world [] [] 1)).2
    ↔ ¬ClientFound Tmux.runtime "a".toList "1".toList 0 (Tmux.world [] [] 1) :=
  failed_attach_iff _ _ _ _ _ _ (.UpstreamUnavailable "container is not running".toList) (by rfl) (by rfl)

/-- The container stops before the last status. -/
theorem failed_attach_leaves_lease : ¬∀ (session_id attachment_id : Text) (looks : ℕ) (w w' : World Tmux)
    (e : AgentHostError), w.attachments[attachment_id]? = none →
    (attach Tmux.runtime session_id attachment_id looks).run w = (.error e, w') →
    NoLeaseLeft Tmux.runtime session_id w w' := by
  intro h
  have hleft : OnlyStaleDropped "a".toList [] ∅
      ((attach Tmux.runtime "a".toList "1".toList 0).run (Tmux.world [] [] 4)).2.attachments :=
    h "a".toList "1".toList 0 (Tmux.world [] [] 4) _ _ (by rfl) (by rfl)
  have hthere : ((attach Tmux.runtime "a".toList "1".toList 0).run
      (Tmux.world [] [] 4)).2.attachments["1".toList]?.isSome = true := by decide +kernel
  rcases hleft "1".toList with hsame | ⟨hgone, -⟩
  · rw [hsame] at hthere
    exact absurd hthere (by decide)
  · rw [hgone] at hthere
    cases hthere

/-! ## What reconciling reaches -/

/-- A kernel whose clients are these: it tells them as they are, a detach takes out exactly
the client that is named, and nothing else changes them or the state of the terminal. -/
structure Detaches (runtime : KernelRuntime κ) (state_of : κ → TerminalState)
    (clients_of : κ → List TerminalClient) : Prop where
  status : ∀ k status k', runtime.terminal_status k = (.ok status, k') →
    status.state = state_of k ∧ status.clients = clients_of k
      ∧ state_of k' = state_of k ∧ clients_of k' = clients_of k
  detach : ∀ client_id k status k', runtime.terminal_detach_client client_id k = (.ok status, k') →
    status.state = state_of k' ∧ status.clients = clients_of k'
      ∧ state_of k' = state_of k
      ∧ clients_of k' = (clients_of k).filter fun client => client.id ≠ client_id
  missing : ∀ client_id k attachment_id k',
    runtime.terminal_detach_client client_id k = (.error (.TerminalAttachmentNotFound attachment_id), k') →
    (∀ client ∈ clients_of k, client.id ≠ client_id)
      ∧ state_of k' = state_of k ∧ clients_of k' = clients_of k

theorem Tmux.detaches : Detaches Tmux.runtime (fun _ => .Running) Tmux.clients where
  status := by
    rintro ⟨clients, requests⟩ status k' h
    cases requests with
    | zero => cases h
    | succ requests =>
      cases h
      exact ⟨rfl, rfl, rfl, rfl⟩
  detach := by
    rintro client_id ⟨clients, requests⟩ status k' h
    cases requests with
    | zero => cases h
    | succ requests =>
      cases h
      exact ⟨rfl, rfl, rfl, rfl⟩
  missing := by
    rintro client_id ⟨clients, requests⟩ attachment_id k' h
    cases requests with
    | zero => cases h
    | succ requests => cases h

/-- Some clients without those with certain ids. -/
def without (ids : List Text) (clients : List TerminalClient) : List TerminalClient :=
  clients.filter fun client => client.id ∉ ids

theorem without_cons (client_id : Text) (rest : List Text) (clients : List TerminalClient) :
    without (client_id :: rest) clients
      = without rest (clients.filter fun client => client.id ≠ client_id) := by
  unfold without
  rw [List.filter_filter]
  refine List.filter_congr fun client _ => ?_
  simp [Bool.and_comm]

/-- **Detaching clients** leaves the others, and tells of them. -/
theorem run_detach_stale {state_of : κ → TerminalState} {clients_of : κ → List TerminalClient}
    (hruntime : Detaches runtime state_of clients_of) {ids : List Text} {status observed : TerminalStatus}
    (hstate : status.state = state_of w.kernel) (hclients : status.clients = clients_of w.kernel)
    (h : (detach_stale runtime status ids).run w = (.ok observed, w')) :
    observed.state = state_of w.kernel ∧ observed.clients = without ids (clients_of w.kernel)
      ∧ state_of w'.kernel = state_of w.kernel
      ∧ clients_of w'.kernel = without ids (clients_of w.kernel) := by
  induction ids generalizing status w with
  | nil =>
    obtain ⟨hobserved, hw'⟩ := Prod.mk.inj h
    have hall : without [] (clients_of w.kernel) = clients_of w.kernel := by
      unfold without
      simp
    rw [← Except.ok.inj hobserved, ← hw', hall]
    exact ⟨hstate, hclients, rfl, rfl⟩
  | cons client_id rest ih =>
    rw [detach_stale] at h
    obtain ⟨answer, w₁, hattempt, h⟩ := Effect.run_bind_ok h
    rw [Effect.run_attempt, run_kernel] at hattempt
    obtain ⟨hanswer, hw₁⟩ := Prod.mk.inj hattempt
    have hanswer := Except.ok.inj hanswer
    have hkernel : w₁.kernel = (runtime.terminal_detach_client client_id w.kernel).2 := by rw [← hw₁]
    have hcall : runtime.terminal_detach_client client_id w.kernel = (answer, w₁.kernel) :=
      Prod.ext hanswer hkernel.symm
    rw [without_cons]
    rcases answer with (attachment_id | message | message | message) | detached
    · dsimp only at h
      obtain ⟨observed', w₂, hstatus, h⟩ := Effect.run_bind_ok h
      rw [run_kernel] at hstatus
      obtain ⟨hanswer', hw₂⟩ := Prod.mk.inj hstatus
      have hkernel₂ : w₂.kernel = (runtime.terminal_status w₁.kernel).2 := by rw [← hw₂]
      obtain ⟨hmissing, hstate₁, hclients₁⟩ := hruntime.missing _ _ _ _ hcall
      obtain ⟨hstate', hclients', hstate₂, hclients₂⟩ :=
        hruntime.status _ _ _ (Prod.ext hanswer' hkernel₂.symm)
      have hgone : (clients_of w.kernel).filter (fun client => client.id ≠ client_id)
          = clients_of w.kernel := List.filter_eq_self.2 fun client hclient => by
        simpa using hmissing client hclient
      obtain ⟨h₁, h₂, h₃, h₄⟩ := ih (hstate'.trans hstate₂.symm) (hclients'.trans hclients₂.symm) h
      rw [hstate₂, hstate₁] at h₁ h₃
      rw [hclients₂, hclients₁] at h₂ h₄
      rw [hgone]
      exact ⟨h₁, h₂, h₃, h₄⟩
    · cases h
    · cases h
    · cases h
    · dsimp only at h
      obtain ⟨hstate', hclients', hstate₁, hclients₁⟩ := hruntime.detach _ _ _ _ hcall
      obtain ⟨h₁, h₂, h₃, h₄⟩ := ih hstate' hclients' h
      rw [hstate₁] at h₁ h₃
      rw [hclients₁] at h₂ h₄
      exact ⟨h₁, h₂, h₃, h₄⟩

/-- A lease of a session in the table. -/
def LeaseOf (session_id : Text) (table : Leases) (lease : AttachmentLease) : Prop :=
  lease.session_id = session_id ∧ ∃ id : Text, table[id]? = some lease

variable {table : Leases}

theorem mem_active_leases {lease : AttachmentLease} :
    lease ∈ active_leases session_id table ↔ LeaseOf session_id table lease := by
  unfold active_leases LeaseOf
  rw [List.mem_filter, List.mem_map, decide_eq_true_eq, and_comm]
  refine and_congr_right fun _ => ⟨?_, ?_⟩
  · rintro ⟨entry, hmem, rfl⟩
    exact ⟨entry.1, Std.ExtTreeMap.mem_toList_iff_getElem?_eq_some.1 hmem⟩
  · rintro ⟨id, hget⟩
    exact ⟨(id, lease), Std.ExtTreeMap.mem_toList_iff_getElem?_eq_some.2 hget, rfl⟩

/-- **What reconciling a session should reach**: each client left has a lease of the
session, the client of each of its leases is there if the terminal is running, and the
leases of other sessions are the same. -/
structure Reconciled (session_id : Text) (before after : Leases) (state : TerminalState)
    (clients : List TerminalClient) : Prop where
  owned : ∀ client ∈ clients, ∃ lease, LeaseOf session_id after lease ∧ owns lease client = true
  observed : state = .Running → ∀ lease, LeaseOf session_id after lease →
    ∀ client_id, lease.tmux_client_id = some client_id → client_id ∈ clients.map (·.id)
  others : SameOutside session_id before after

/-- Each client that is not detached has an owner that stays: one whose exec is not that of
a lease of the session with a client of its own that is not there. -/
def OwnersStay (session_id : Text) (before : Leases) (state : TerminalState)
    (clients : List TerminalClient) : Prop :=
  let kept := without (stale_clients (active_leases session_id before) clients) clients
  state = .Running → ∀ client ∈ kept, ∃ lease, LeaseOf session_id before lease
    ∧ owns lease client = true
    ∧ ∀ phantom, LeaseOf session_id before phantom → ∀ client_id,
      phantom.tmux_client_id = some client_id → client_id ∉ kept.map (·.id) →
        phantom.exec_id ≠ lease.exec_id

theorem mem_phantom_ids {clients : List TerminalClient} {exec_id : Text} :
    exec_id ∈ phantom_ids (active_leases session_id table) clients ↔
      ∃ phantom, LeaseOf session_id table phantom ∧ phantom.exec_id = exec_id
        ∧ ∃ client_id, phantom.tmux_client_id = some client_id ∧ client_id ∉ clients.map (·.id) := by
  unfold phantom_ids
  rw [List.mem_filterMap]
  simp only [mem_active_leases, Option.map_eq_some_iff, Option.filter_eq_some_iff, decide_eq_true_eq]
  constructor
  · rintro ⟨phantom, hlease, client_id, ⟨hclient, hnot⟩, hexec⟩
    exact ⟨phantom, hlease, hexec, client_id, hclient, hnot⟩
  · rintro ⟨phantom, hlease, hexec, client_id, hclient, hnot⟩
    exact ⟨phantom, hlease, client_id, ⟨hclient, hnot⟩, hexec⟩

/-- A client that is not detached has an owner before. -/
theorem exists_owner_of_kept {clients : List TerminalClient} {client : TerminalClient}
    (h : client ∈ without (stale_clients (active_leases session_id table) clients) clients) :
    ∃ lease, LeaseOf session_id table lease ∧ owns lease client = true := by
  unfold without at h
  obtain ⟨hclient, hnot⟩ := List.mem_filter.1 h
  by_contra hnone
  refine (of_decide_eq_true hnot) (List.mem_map.2 ⟨client, List.mem_filter.2 ⟨hclient, ?_⟩, rfl⟩)
  rw [Bool.not_eq_true', List.any_eq_false]
  exact fun lease hlease howns => hnone ⟨lease, mem_active_leases.1 hlease, howns⟩

/-- **Reconciling a session** that succeeds reaches what it should exactly if each client
that is left has an owner that stays. -/
theorem reconcile_correct_iff (runtime : KernelRuntime κ) (state_of : κ → TerminalState)
    (clients_of : κ → List TerminalClient) (hruntime : Detaches runtime state_of clients_of)
    (session_id : Text) (w w' : World κ) (status : TerminalStatus)
    (hrun : (reconcile_locked runtime session_id).run w = (.ok status, w')) :
    Reconciled session_id w.attachments w'.attachments (state_of w'.kernel) (clients_of w'.kernel)
      ↔ OwnersStay session_id w.attachments (state_of w.kernel) (clients_of w.kernel) := by
  have hothers := reconcile_sameOutside hrun
  unfold reconcile_locked at hrun
  obtain ⟨first, w₁, hstatus, hrun⟩ := Effect.run_bind_ok hrun
  have hw₁ := attachments_kernel hstatus
  rw [run_kernel] at hstatus
  obtain ⟨hanswer, hw₁'⟩ := Prod.mk.inj hstatus
  have hkernel₁ : w₁.kernel = (runtime.terminal_status w.kernel).2 := by rw [← hw₁']
  obtain ⟨hstate, hclients, hstate₁, hclients₁⟩ := hruntime.status _ _ _ (Prod.ext hanswer hkernel₁.symm)
  rcases run_reconcile_status hrun with ⟨e, he, -⟩ | ⟨observed, w₂, hdetach, -, hkernel, hget⟩
  · cases he
  rw [hw₁] at hdetach hget
  obtain ⟨hobserved_state, hobserved, hstate₂, hclients₂⟩ :=
    run_detach_stale hruntime (hstate.trans hstate₁.symm) (hclients.trans hclients₁.symm) hdetach
  rw [hclients₁, hclients] at hobserved hclients₂
  rw [hstate₁] at hobserved_state hstate₂
  rw [hkernel, hstate₂, hclients₂]
  rw [hobserved_state, hobserved] at hget
  unfold OwnersStay
  dsimp only
  -- a lease that is left was there, and is no phantom of a running terminal
  have hleft : ∀ lease, LeaseOf session_id w'.attachments lease ↔
      LeaseOf session_id w.attachments lease ∧ (state_of w.kernel = .Running →
        ∀ phantom, LeaseOf session_id w.attachments phantom → ∀ client_id,
          phantom.tmux_client_id = some client_id →
          client_id ∉ (without (stale_clients (active_leases session_id w.attachments)
            (clients_of w.kernel)) (clients_of w.kernel)).map (·.id) →
          phantom.exec_id ≠ lease.exec_id) := by
    intro lease
    have hphantom : ∀ hsession : lease.session_id = session_id,
        (is_phantom session_id (phantom_ids (active_leases session_id w.attachments)
          (without (stale_clients (active_leases session_id w.attachments) (clients_of w.kernel))
            (clients_of w.kernel))) lease = false)
        ↔ ∀ phantom, LeaseOf session_id w.attachments phantom → ∀ client_id,
          phantom.tmux_client_id = some client_id →
          client_id ∉ (without (stale_clients (active_leases session_id w.attachments)
            (clients_of w.kernel)) (clients_of w.kernel)).map (·.id) →
          phantom.exec_id ≠ lease.exec_id := by
      intro hsession
      unfold is_phantom
      rw [decide_eq_true hsession, Bool.true_and, decide_eq_false_iff_not, mem_phantom_ids]
      constructor
      · intro h phantom hlease client_id hclient hnot hexec
        exact h ⟨phantom, hlease, hexec, client_id, hclient, hnot⟩
      · rintro h ⟨phantom, hlease, hexec, client_id, hclient, hnot⟩
        exact h phantom hlease client_id hclient hnot hexec
    unfold LeaseOf
    simp only [hget, remaining_eq_some]
    constructor
    · rintro ⟨hsession, id, hlease, hnot⟩
      exact ⟨⟨hsession, id, hlease⟩, fun hrunning => (hphantom hsession).1 (hnot hrunning)⟩
    · rintro ⟨⟨hsession, id, hlease⟩, hnot⟩
      exact ⟨hsession, id, hlease, fun hrunning => (hphantom hsession).2 (hnot hrunning)⟩
  constructor
  · intro h hrunning client hclient
    obtain ⟨lease, hlease, howns⟩ := h.owned client hclient
    obtain ⟨hbefore, hnot⟩ := (hleft lease).1 hlease
    exact ⟨lease, hbefore, howns, hnot hrunning⟩
  · intro h
    refine ⟨fun client hclient => ?_, fun hrunning lease hlease client_id htmux => ?_, hothers⟩
    · by_cases hrunning : state_of w.kernel = .Running
      · obtain ⟨lease, hlease, howns, hnot⟩ := h hrunning client hclient
        exact ⟨lease, (hleft lease).2 ⟨hlease, fun _ => hnot⟩, howns⟩
      · obtain ⟨lease, hlease, howns⟩ := exists_owner_of_kept hclient
        exact ⟨lease, (hleft lease).2 ⟨hlease, fun hr => absurd hr hrunning⟩, howns⟩
    · obtain ⟨hbefore, hnot⟩ := (hleft lease).1 hlease
      by_contra hunobserved
      exact hnot hrunning lease hbefore client_id htmux hunobserved rfl

/-- The client of an attachment that is being made is left. -/
theorem reconciled_starting : Reconciled "a".toList Tmux.starting.attachments
      ((reconcile_locked Tmux.runtime "a".toList).run Tmux.starting).2.attachments .Running
      ((reconcile_locked Tmux.runtime "a".toList).run Tmux.starting).2.kernel.clients
    ↔ OwnersStay "a".toList Tmux.starting.attachments .Running Tmux.starting.kernel.clients :=
  reconcile_correct_iff Tmux.runtime (fun _ => .Running) Tmux.clients Tmux.detaches "a".toList Tmux.starting _
    (Tmux.observed [⟨"/dev/pts/1".toList, some "1".toList⟩]) (by rfl)

/-- A client of an attachment whose own client is gone stays, and the lease goes. -/
theorem nested_client_unowned : ¬∀ (session_id : Text) (w w' : World Tmux) (status : TerminalStatus),
    (reconcile_locked Tmux.runtime session_id).run w = (.ok status, w') →
    Reconciled session_id w.attachments w'.attachments .Running w'.kernel.clients := by
  intro h
  have hreached := h "a".toList Tmux.nested _ _ (by rfl)
  obtain ⟨lease, ⟨-, id, hlease⟩, -⟩ :=
    hreached.owned ⟨"/dev/pts/2".toList, some "1".toList⟩ List.mem_cons_self
  have hlease : ((reconcile_locked Tmux.runtime "a".toList).run Tmux.nested).2.attachments[id]? = some lease :=
    hlease
  have hempty : ((reconcile_locked Tmux.runtime "a".toList).run Tmux.nested).2.attachments.isEmpty = true := by
    decide +kernel
  rw [Std.ExtTreeMap.isEmpty_iff.1 hempty, Std.ExtTreeMap.getElem?_empty] at hlease
  cases hlease

end Calls

end AgentSpace.TerminalService
