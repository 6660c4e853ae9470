/-
The terminal service: `agent_host_rs/src/terminal.rs`.

It keeps a lease for each attachment, of all sessions in one table. Reconciling a session detaches
the clients that no lease of it owns, and then drops its leases whose client is not there. A call
runs from its first access to the table to its last as one computation. The deadline of the
discovery is the number of looks before it.
-/
import AgentSpace.Text
import AgentSpace.Lib.Effect

set_option autoImplicit false

namespace AgentSpace.TerminalService

open Text Lib

/-! ## Data -/

/-- `TerminalState`. -/
inductive TerminalState where
  | Missing
  | Running
  | Exited
  deriving DecidableEq

/-- `TerminalState`, as it is written with `{:?}`. -/
def TerminalState.debug : TerminalState → Text
  | .Missing => "Missing".toList
  | .Running => "Running".toList
  | .Exited => "Exited".toList

/-- `TerminalAttachKind`. -/
inductive TerminalAttachKind where
  | Started
  | Attached
  | Resumed

/-- `TerminalClient`, as far as the service reads it. -/
structure TerminalClient where
  id : Text
  attachment_id : Option Text
  deriving DecidableEq

/-- `TerminalStatus`, as far as the service reads or writes it. -/
structure TerminalStatus where
  state : TerminalState
  attach_kind : Option TerminalAttachKind
  attach_argv : List Text
  attachment_count : ℕ
  clients : List TerminalClient

/-- `AgentHostError`: what the service tells apart or makes itself. -/
inductive AgentHostError where
  | TerminalAttachmentNotFound (attachment_id : Text)
  | Conflict (message : Text)
  | UpstreamUnavailable (message : Text)
  | Other (message : Text)

/-- `DisconnectKind`, of the ends of a lease. -/
inductive DisconnectKind where
  | Gone
  | Conflict

/-- `Disconnect`. -/
structure Disconnect where
  kind : DisconnectKind
  message : Text

/-- `AttachmentLease`; what is sent to its `lifecycle` is kept with the table. -/
structure AttachmentLease where
  attachment_id : Text
  session_id : Text
  exec_id : Text
  tmux_client_id : Option Text
  cols : UInt16
  rows : UInt16

/-- The leases, by the ids of their attachments. -/
abbrev Leases := Std.ExtTreeMap Text AttachmentLease compare

/-- `DEFAULT_COLS`. -/
def DEFAULT_COLS : UInt16 := 80
/-- `DEFAULT_ROWS`. -/
def DEFAULT_ROWS : UInt16 := 24

/-- The part of `KernelRuntime` about the terminal of the session's kernel. -/
structure KernelRuntime (κ : Type) where
  terminal_status : κ → Except AgentHostError TerminalStatus × κ
  terminal_detach_client : Text → κ → Except AgentHostError TerminalStatus × κ
  terminal_attach : Text → List Text → κ → Except AgentHostError Text × κ
  terminal_resize : Text → UInt16 → UInt16 → κ → Except AgentHostError Unit × κ

/-- The table, what was sent to lifecycles so far, and the kernel. -/
structure World (κ : Type) where
  attachments : Leases
  sent : List (Text × Option Disconnect)
  kernel : κ

/-- A call of the service. -/
abbrev Call (κ : Type) := Effect AgentHostError (World κ)

/-! ## Steps -/

section Steps

variable {κ α : Type}

/-- A request to the kernel. -/
def kernel (f : κ → Except AgentHostError α × κ) : Call κ α :=
  Effect.ask World.kernel (fun w k => { w with kernel := k }) f

/-- A change of the table. -/
def change_attachments (f : Leases → Leases) : Call κ Unit :=
  Effect.change fun w => { w with attachments := f w.attachments }

/-- `attachments.remove`. -/
def remove_attachment (attachment_id : Text) : Call κ (Option AttachmentLease) := do
  let lease ← Effect.read fun w => w.attachments[attachment_id]?
  change_attachments fun attachments => attachments.erase attachment_id
  return lease

/-- `lifecycle.send`. -/
def send (attachment_id : Text) (disconnect : Option Disconnect) : Call κ Unit :=
  Effect.change fun w => { w with sent := w.sent ++ [(attachment_id, disconnect)] }

end Steps

/-! ## Reconciling -/

/-- A client is the one of a lease: by the attachment it names, or by its own id. -/
def owns (lease : AttachmentLease) (client : TerminalClient) : Bool :=
  client.attachment_id = some lease.attachment_id || lease.tmux_client_id = some client.id

/-- The leases of a session. -/
def active_leases (session_id : Text) (attachments : Leases) : List AttachmentLease :=
  (attachments.toList.map Prod.snd).filter fun lease => lease.session_id = session_id

/-- The clients that no lease owns. -/
def stale_clients (active : List AttachmentLease) (clients : List TerminalClient) : List Text :=
  (clients.filter fun client => !active.any fun lease => owns lease client).map (·.id)

/-- The execs of leases whose client is not there. -/
def phantom_ids (active : List AttachmentLease) (clients : List TerminalClient) : List Text :=
  active.filterMap fun lease =>
    (lease.tmux_client_id.filter fun client_id => client_id ∉ clients.map (·.id)).map fun _ =>
      lease.exec_id

/-- A lease of the session with one of the execs. -/
def is_phantom (session_id : Text) (phantoms : List Text) (lease : AttachmentLease) : Bool :=
  lease.session_id = session_id && lease.exec_id ∈ phantoms

section Service

variable {κ : Type} (runtime : KernelRuntime κ) (session_id : Text)

/-- The loop over the stale clients. -/
def detach_stale (status : TerminalStatus) : List Text → Call κ TerminalStatus
  | [] => pure status
  | client_id :: rest => do
    match ← Effect.attempt (kernel (runtime.terminal_detach_client client_id)) with
    | .ok observed => detach_stale observed rest
    | .error (.TerminalAttachmentNotFound _) => do
      let observed ← kernel runtime.terminal_status
      detach_stale observed rest
    | .error error => throw error

/-- The leases with these execs are taken out, and told so. -/
def drop_phantoms (phantoms : List Text) : Call κ Unit :=
  Effect.change fun w =>
    let removed := w.attachments.toList.filter fun entry => is_phantom session_id phantoms entry.2
    { w with
      attachments := w.attachments.filter fun _ lease => !is_phantom session_id phantoms lease
      sent := w.sent ++ removed.map fun entry => (entry.1, some ⟨.Conflict,
        "tmux client disappeared during attachment reconciliation".toList⟩) }

/-- `reconcile_status_locked`. -/
def reconcile_status_locked (status : TerminalStatus) : Call κ TerminalStatus := do
  let active ← Effect.read fun w => active_leases session_id w.attachments
  let status ← detach_stale runtime status (stale_clients active status.clients)
  let phantoms := phantom_ids active status.clients
  if status.state = .Running ∧ phantoms ≠ [] then
    drop_phantoms session_id phantoms
  return { status with attachment_count := status.clients.length }

/-- `reconcile_locked`. -/
def reconcile_locked : Call κ TerminalStatus := do
  let status ← kernel runtime.terminal_status
  reconcile_status_locked runtime session_id status

/-! ## Attaching and detaching -/

/-- A look at the clients for the one of an attachment. -/
def look_for_client (attachment_id : Text) : Call κ (Option Text) := do
  let status ← kernel runtime.terminal_status
  return (status.clients.find? fun client => client.attachment_id = some attachment_id).map (·.id)

/-- `discover_client_locked`, with so many looks before the deadline. -/
def discover_client_locked (attachment_id : Text) : ℕ → Call κ Text
  | 0 => do
    match ← look_for_client runtime attachment_id with
    | some client_id => return client_id
    | none =>
      throw (.UpstreamUnavailable ("Docker exec for terminal attachment \"".toList
        ++ attachment_id ++ "\" did not appear in tmux client state".toList))
  | looks + 1 => do
    match ← look_for_client runtime attachment_id with
    | some client_id => return client_id
    | none => do
      let lease ← Effect.read fun w => w.attachments[attachment_id]?
      if lease.any fun lease => lease.session_id = session_id then
        discover_client_locked attachment_id looks
      else throw (.Conflict "terminal attachment disappeared during client discovery".toList)

/-- The lease of a new attachment. -/
def new_lease (attachment_id exec_id : Text) : AttachmentLease :=
  ⟨attachment_id, session_id, exec_id, none, DEFAULT_COLS, DEFAULT_ROWS⟩

/-- `attach`, until the client of the attachment with this new id is found: how the
terminal was attached to, and the client. -/
def attach_client (attachment_id : Text) (looks : ℕ) : Call κ (Option TerminalAttachKind × Text) := do
  let observed ← reconcile_locked runtime session_id
  if observed.state ≠ .Running then
    throw (.Conflict ("terminal attachment requires a running terminal; observed ".toList
      ++ observed.state.debug))
  else if observed.attach_argv = [] then
    throw (.UpstreamUnavailable "kernel terminal controller returned an empty attach argv".toList)
  else do
    let exec_id ← kernel (runtime.terminal_attach attachment_id observed.attach_argv)
    kernel (runtime.terminal_resize exec_id DEFAULT_COLS DEFAULT_ROWS)
    change_attachments fun attachments =>
      attachments.insert attachment_id (new_lease session_id attachment_id exec_id)
    match ← Effect.attempt (discover_client_locked runtime session_id attachment_id looks) with
    | .ok client_id => return (observed.attach_kind, client_id)
    | .error error => do
      change_attachments fun attachments => attachments.erase attachment_id
      throw error

/-- `attach`: the status of the connection. -/
def attach (attachment_id : Text) (looks : ℕ) : Call κ TerminalStatus := do
  let (attach_kind, client_id) ← attach_client runtime session_id attachment_id looks
  change_attachments fun attachments =>
    attachments.modify attachment_id fun lease => { lease with tmux_client_id := some client_id }
  let status ← reconcile_locked runtime session_id
  return { status with attach_kind := attach_kind }

/-- `detach`. -/
def detach (attachment_id : Text) : Call κ Unit := do
  let lease ← remove_attachment attachment_id
  match lease.filter fun lease => lease.session_id = session_id with
  | none => return ()
  | some lease => do
    match lease.tmux_client_id with
    | some client_id =>
      match ← Effect.attempt (kernel (runtime.terminal_detach_client client_id)) with
      | .ok _ => pure ()
      | .error (.TerminalAttachmentNotFound _) => pure ()
      | .error error => throw error
    | none => pure ()
    send attachment_id none
    let _ ← reconcile_locked runtime session_id
    return ()

end Service

end AgentSpace.TerminalService
