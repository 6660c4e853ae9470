/-
The handlers of one session: `client_service_rs/src/api.rs`.

Each is a program over the calls of `Sessions/State.lean`, in the order of the source. What
flattens the kernel events into a message is a parameter.
-/
import AgentSpace.Sessions.State

set_option autoImplicit false

namespace AgentSpace.Sessions

open Text Lib

/-- What the handlers use and this development does not model: `Uuid::parse_str`,
`flatten_text`, `flatten_reasoning` and `extract_tool_calls`. -/
structure Externals (Event : Type) where
  is_uuid : Text → Bool
  flatten_text : List Event → Text
  flatten_reasoning : List Event → Text
  extract_tool_calls : List Event → List ToolCallRecord

/-- A handler, or a part of one. -/
abbrev Handler (Event α : Type) := ExceptT ApiError (Prog (Call Event) Reply) α

section Handlers

variable {Event α : Type}

namespace Handler

/-- One call. -/
def ask (c : Call Event) : Handler Event (Reply c) := ExceptT.lift (Prog.lift c)

/-- The `?` operator on an answer. -/
def require {ε : Type} (f : ε → ApiError) (answer : Except ε α) : Handler Event α :=
  match answer with
  | .ok a => pure a
  | .error e => throw (f e)

/-- The early return of an error. -/
def return_error_if (condition : Prop) [Decidable condition] (error : ApiError) : Handler Event Unit :=
  if condition then throw error else pure ()

/-- What follows is run with the lifecycle lock, which its guard gives back in the end. -/
def with_lifecycle (body : Handler Event α) : Handler Event α :=
  ExceptT.mk do
    let _ ← Prog.lift .lock
    let answer ← body.run
    let _ ← Prog.lift .unlock
    return answer

/-- What follows is run with a registered turn, which `ActiveTurnGuard` clears in the end. -/
def with_active_turn (turn_id : Text) (body : Handler Event α) : Handler Event α := do
  require .active_turn (← ask (.begin_active_turn turn_id))
  ExceptT.mk do
    let answer ← body.run
    let _ ← Prog.lift (.drop_active_turn turn_id)
    return answer

end Handler

open Handler

/-! ## Parts of handlers -/

/-- `state.sessions.update`. -/
def sessions_update (session : SessionRecord) : Handler Event Unit := do
  require .store (← ask (.update none session))

/-- `require_session`. -/
def require_session : Handler Event SessionRecord := do
  match ← require .store (← ask .get) with
  | some session => pure session
  | none => throw .session_not_found

/-- `require_chat_session`. -/
def require_chat_session : Handler Event SessionRecord := do
  let session ← require_session
  return_error_if (session.interaction_mode = .Cli) .uses_cli_mode
  pure session

/-- The checks of `require_cli_session` that it makes of the record. -/
def check_cli_session (externals : Externals Event) (session : SessionRecord) : Except ApiError Unit :=
  if session.interaction_mode ≠ .Cli then .error .not_cli_mode
  else if session.recovery_state = .LegacyUnrecoverable then .error .legacy_unrecoverable
  else if session.workspace_volume_identity ≠ some session.session_id then
    .error .invalid_workspace_identity
  else if session.agent_host_session_id ≠ [] ∧ session.agent_host_session_id ≠ session.session_id then
    .error .unstable_agent_host_mapping
  else if ¬session.has_cli_harness then .error .no_cli_harness
  else
    match session.launch_snapshot with
    | none => .error .no_launch_snapshot
    | some snapshot =>
      if snapshot.schema_version ≠ 1 then
        .error (.unsupported_snapshot_version snapshot.schema_version)
      else
        match session.harness_session_id with
        | none => .error .no_harness_session_id
        | some harness_session_id =>
          if ¬externals.is_uuid harness_session_id then .error .invalid_harness_session_id
          else .ok ()

/-- The checks of `require_cli_session` that it makes once it has found the agent. -/
def check_cli_snapshot (session : SessionRecord) (snapshot : CliLaunchSnapshot) : Except ApiError Unit :=
  let consistent : Except ApiError Unit :=
    match snapshot.provider_connection_id with
    | some connection_id =>
      if connection_id ≠ session.cli_connection_id.getD [] then
        .error .inconsistent_connection_snapshot
      else .ok ()
    | none =>
      if session.cli_connection_id.isSome then .error .no_provider_snapshot else .ok ()
  match consistent with
  | .error e => .error e
  | .ok () =>
    if ∃ identity ∈ snapshot.agent_profile_identity,
        identity ≠ "agentspace-".toList ++ session.session_id then
      .error .inconsistent_profile_snapshot
    else .ok ()

/-- `require_cli_session`. -/
def require_cli_session (externals : Externals Event) : Handler Event SessionRecord := do
  let session ← require_session
  require id (check_cli_session externals session)
  require id (← ask .configuration)
  require id (check_cli_snapshot session (session.launch_snapshot.getD ⟨0, none, none⟩))
  pure session

/-- `require_cli_runtime`. -/
def require_cli_runtime (externals : Externals Event) : Handler Event SessionRecord := do
  let session ← require_cli_session externals
  return_error_if (session.agent_host_session_id ≠ session.session_id) .no_stable_runtime
  return_error_if (session.runtime_status ∈ [none, some .Starting, some .Error])
    .runtime_not_available
  pure session

/-- `mark_runtime_error`, and the error that is returned then. -/
def mark_runtime_error (session : SessionRecord) (error : ApiError) : Handler Event α := do
  sessions_update { session with status := "error".toList, runtime_status := some .Error }
  throw error

/-- A match on an answer, with `mark_runtime_error` on an error. -/
def require_or_mark {ε : Type} (session : SessionRecord) (f : ε → ApiError) (answer : Except ε α) :
    Handler Event α :=
  match answer with
  | .ok a => pure a
  | .error e => mark_runtime_error session (f e)

/-- `string_field`. -/
def string_field (field : String) (value : Option Text) : Except ApiError Text :=
  match value with
  | some value => .ok value
  | none => .error (.missing_string_field field)

/-- `optional_non_empty_string`. -/
def optional_non_empty_string (value : Option Text) : Option Text := value.filter (· ≠ [])

/-- `advance_runtime_generation_if_resumed`. -/
def advance_runtime_generation_if_resumed (session : SessionRecord) (terminal : Terminal) : SessionRecord :=
  if terminal.attach_kind = some "resumed".toList then
    let generation := session.runtime_generation.getD 0
    -- `saturating_add`
    { session with
      runtime_generation :=
        some (if generation.toNat + 1 < 2 ^ 64 then generation + 1 else generation) }
  else session

/-- The runtime status of a terminal state. -/
def runtime_status_of (terminal_state : Text) : Except ApiError RuntimeStatus :=
  if terminal_state = "running".toList then .ok .Live
  else if terminal_state = "exited".toList then .ok .Exited
  else if terminal_state = "missing".toList then .ok .Disconnected
  else .error (.unknown_state terminal_state)

/-- `apply_terminal_runtime_status`. -/
def apply_terminal_runtime_status (session : SessionRecord) (terminal : Terminal) :
    Handler Event SessionRecord :=
  match terminal.state with
  | none => throw .missing_state
  | some terminal_state => do
    let runtime_status ← require id (runtime_status_of terminal_state)
    let session := { session with runtime_status := some runtime_status, status := terminal_state }
    require .store (← ask (.update (some terminal) session))
    pure session

/-- `PublicTerminalStatus`. -/
structure PublicTerminalStatus where
  state : Text
  exit_status : Option ℤ
  attach_kind : Option Text
  attachment_count : ℕ

/-- `public_terminal_status`. -/
def public_terminal_status (terminal : Terminal) : Except ApiError PublicTerminalStatus :=
  match terminal.state, terminal.attachment_count with
  | none, _ => .error .missing_state
  | some _, none => .error .missing_attachment_count
  | some state, some attachment_count =>
    .ok ⟨state, terminal.exit_status, terminal.attach_kind, attachment_count⟩

/-! ## Runtimes -/

/-- What `ensure_cli_runtime_locked` and `ensure_chat_runtime_locked` check of the answer to
`create_session`, and what they take from it. -/
def stable_identity (session : SessionRecord) (upstream : Upstream) : Except ApiError Unit :=
  match string_field "session_id" upstream.session_id with
  | .error e => .error e
  | .ok session_id =>
    if session_id ≠ session.session_id then .error (.unexpected_identity session_id) else .ok ()

/-- The record of a session whose runtime is live. -/
def live_record (session : SessionRecord) (upstream : Upstream) (status : Text) : SessionRecord :=
  { session with
    agent_host_session_id := session.session_id
    status := status
    vscode_url := optional_non_empty_string upstream.vscode_url
    free_port_url := optional_non_empty_string upstream.free_port_url
    runtime_status := some .Live }

/-- The update of a live record; when it fails, the runtime is destroyed again. -/
def persist_runtime (session : SessionRecord) : Handler Event Unit := do
  match ← ask (.update none session) with
  | .ok () => pure ()
  | .error e => do
    let _ ← ask .destroy_session
    throw (.store e)

/-- `ensure_cli_runtime_locked`: what the agent host says of the terminal. -/
def ensure_cli_runtime_locked (externals : Externals Event) (session : SessionRecord) :
    Handler Event Terminal := do
  let validated ← (ExceptT.mk (do return .ok (← (require_cli_session externals).run)) :
    Handler Event (Except ApiError SessionRecord))
  let _ ← require_or_mark session id validated
  require_or_mark session id (← ask .configuration)
  let upstream ← require_or_mark session .agent_host (← ask .create_session)
  require_or_mark session id (stable_identity session upstream)
  let session := { live_record session upstream (upstream.status.getD "idle".toList) with
    runtime_generation := some (session.runtime_generation.getD 0) }
  persist_runtime session
  let terminal ← require_or_mark session .terminal_upstream (← ask .terminal_ensure)
  let _ ← apply_terminal_runtime_status (advance_runtime_generation_if_resumed session terminal) terminal
  pure terminal

/-- `ensure_cli_runtime`. -/
def ensure_cli_runtime (externals : Externals Event) : Handler Event Terminal :=
  with_lifecycle do
    let session ← require_session
    ensure_cli_runtime_locked externals session

/-- `ensure_chat_runtime_locked` of a session without a stable workspace. -/
def ensure_legacy_runtime (session : SessionRecord) : Handler Event SessionRecord := do
  match ← ask .get_session with
  | .ok upstream =>
    match upstream.status with
    | some status => do
      let session := { session with status := status }
      sessions_update session
      pure session
    | none => pure session
  | .error (.HttpStatus 404) => do
    let session := { session with
      status := "legacy-unrecoverable".toList
      runtime_status := some .Error }
    sessions_update session
    pure session
  | .error e => throw (.agent_host e)

/-- `ensure_chat_runtime_locked` of the others. -/
def ensure_stable_runtime (session : SessionRecord) : Handler Event SessionRecord := do
  require_or_mark session id (← ask .configuration)
  let upstream ← require_or_mark session .agent_host (← ask .create_session)
  require_or_mark session id (stable_identity session upstream)
  let status ← require_or_mark { session with agent_host_session_id := session.session_id } id
    (string_field "status" upstream.status)
  let session := live_record session upstream status
  persist_runtime session
  pure session

/-- `ensure_chat_runtime_locked`. -/
def ensure_chat_runtime_locked (session : SessionRecord) : Handler Event SessionRecord :=
  if session.recovery_state = .LegacyUnrecoverable then ensure_legacy_runtime session
  else ensure_stable_runtime session

/-- `ensure_chat_runtime`. -/
def ensure_chat_runtime : Handler Event SessionRecord :=
  with_lifecycle do
    let session ← require_chat_session
    ensure_chat_runtime_locked session

/-- `require_available_runtime`. -/
def require_available_runtime (session : SessionRecord) : Handler Event Unit :=
  return_error_if (session.status = "legacy-unrecoverable".toList) .legacy_unrecoverable

/-! ## Terminals -/

/-- `terminal_status`. -/
def terminal_status (externals : Externals Event) : Handler Event PublicTerminalStatus := do
  let session ← require_cli_runtime externals
  let terminal ← require .terminal_upstream (← ask .terminal_status)
  let _ ← apply_terminal_runtime_status session terminal
  require id (public_terminal_status terminal)

/-- `terminal_ensure`. -/
def terminal_ensure (externals : Externals Event) : Handler Event PublicTerminalStatus := do
  let _ ← require_cli_session externals
  let terminal ← ensure_cli_runtime externals
  require id (public_terminal_status terminal)

/-- `terminal_stop`. -/
def terminal_stop (externals : Externals Event) : Handler Event PublicTerminalStatus :=
  with_lifecycle do
    let session ← require_cli_runtime externals
    let terminal ← require .terminal_upstream (← ask .terminal_stop)
    let _ ← apply_terminal_runtime_status session terminal
    require id (public_terminal_status terminal)

/-- `terminal_resume`. -/
def terminal_resume (externals : Externals Event) : Handler Event PublicTerminalStatus :=
  with_lifecycle do
    let session ← require_cli_runtime externals
    let terminal ← require .terminal_upstream (← ask .terminal_resume)
    let _ ← apply_terminal_runtime_status (advance_runtime_generation_if_resumed session terminal)
      terminal
    require id (public_terminal_status terminal)

/-- `terminal_websocket`, up to the upgrade. -/
def terminal_websocket (externals : Externals Event) : Handler Event Unit := do
  let session ← require_cli_runtime externals
  let terminal ← require .terminal_upstream (← ask .terminal_status)
  let _ ← apply_terminal_runtime_status session terminal
  return_error_if (terminal.state ≠ some "running".toList) .terminal_not_running
  require .terminal_upstream (← ask .connect_terminal_websocket)

/-! ## Sessions -/

/-- `get_session`: the record that is shown. -/
def get_session : Handler Event SessionRecord := do
  let session ← require_session
  if session.interaction_mode = .Cli then pure session else ensure_chat_runtime

/-- `kill_kernel`, with the loop over the sessions at the one session. -/
def kill_kernel (kernel_session_id : Text) : Handler Event Unit := do
  let sessions ← require .agent_host (← ask .list_sessions)
  return_error_if (∀ session ∈ sessions, session.session_id ≠ some kernel_session_id) .kernel_not_found
  require .agent_host (← ask .destroy_session)
  match ← require .store (← ask .list) with
  | some session =>
    if session.agent_host_session_id = kernel_session_id then
      sessions_update { session with status := "dead".toList }
    else pure ()
  | none => pure ()

/-- `reset_session`, with the lock. -/
def reset_session_locked : Handler Event SessionRecord := do
  let session ← require_chat_session
  let session ← ensure_chat_runtime_locked session
  require_available_runtime session
  let upstream ← require_or_mark session .agent_host (← ask .reset_session)
  require_or_mark session id (stable_identity session upstream)
  let status ← require_or_mark { session with agent_host_session_id := session.session_id } id
    (string_field "status" upstream.status)
  let session := live_record session upstream status
  require .store (← ask .clear_messages)
  sessions_update session
  pure session

/-- `reset_session`. -/
def reset_session : Handler Event SessionRecord := with_lifecycle reset_session_locked

/-! ## Turns -/

/-- What a turn is given when it starts: its identifiers and times. -/
structure Turn where
  turn_id : Text
  user_message_id : Text
  user_created_at : Text
  assistant_message_id : Text
  assistant_created_at : Text
  message : Text

/-- The user's message of a turn. -/
def Turn.user_message (turn : Turn) : MessageRecord :=
  ⟨turn.user_message_id, .User, turn.message, turn.user_created_at, [], []⟩

/-- The assistant's message of a streaming turn before the first event. -/
def Turn.empty_message (turn : Turn) : MessageRecord :=
  ⟨turn.assistant_message_id, .Assistant, [], turn.assistant_created_at, [], []⟩

/-- `assistant_message_from_events`. -/
def assistant_message_from_events (externals : Externals Event) (turn : Turn) (events : List Event) :
    MessageRecord :=
  ⟨turn.assistant_message_id, .Assistant, externals.flatten_text events, turn.assistant_created_at,
    externals.extract_tool_calls events, externals.flatten_reasoning events⟩

/-- `start_streaming_turn` after the turn is registered. -/
def start_streaming_turn (turn : Turn) (session : SessionRecord) : Handler Event Unit := do
  sessions_update { session with status := "busy".toList }
  require .store (← ask (.append_message turn.user_message))
  require .store (← ask (.append_message turn.empty_message))

/-- How a stream ends: with the events that were received, and whether it was completed or ended
in an error. -/
structure Received (Event : Type) where
  events : List Event
  completed : Bool
  error : Bool

/-- The loop of `run_streaming_turn` over what the stream delivers. -/
def receive_events (externals : Externals Event) (turn : Turn) :
    List Event → List (Except AgentHostError Event) → Handler Event (Received Event)
  | events, [] => do
    let _ ← ask .next_event
    pure ⟨events, true, false⟩
  | events, .error _ :: _ => do
    let _ ← ask .next_event
    pure ⟨events, false, true⟩
  | events, .ok event :: rest => do
    let _ ← ask .next_event
    let events := events ++ [event]
    match ← ask (.update_message false (assistant_message_from_events externals turn events)) with
    | .ok () => receive_events externals turn events rest
    | .error _ => pure ⟨events, false, true⟩

/-- `finalize_streaming_turn`. -/
def finalize_streaming_turn (externals : Externals Event) (turn : Turn) (received : Received Event) :
    Handler Event SessionRecord := do
  require .store
    (← ask (.update_message true (assistant_message_from_events externals turn received.events)))
  let session ← require_session
  let upstream ← ask .get_session
  let session := { session with status :=
    match upstream with
    | .ok upstream => upstream.status.getD session.status
    | .error _ => if received.error then "error".toList else session.status }
  sessions_update session
  pure session

/-- `run_streaming_turn`: what the final payload is made of. -/
def run_streaming_turn (externals : Externals Event) (turn : Turn) :
    Handler Event SessionRecord := do
  let received ← (match ← ask .stream_message with
    | .ok stream => receive_events externals turn [] stream
    | .error _ => pure ⟨[], false, true⟩ : Handler Event (Received Event))
  finalize_streaming_turn externals turn received

/-- `stream_message`, with the turn that it spawns. -/
def stream_message (externals : Externals Event) (turn : Turn) : Handler Event SessionRecord := do
  let _ ← require_chat_session
  let session ← ensure_chat_runtime
  require_available_runtime session
  let session ← require_chat_session
  with_active_turn turn.turn_id do
    start_streaming_turn turn session
    run_streaming_turn externals turn

/-- `run_turn` after the turn is registered. -/
def run_registered_turn (externals : Externals Event) (turn : Turn) (session : SessionRecord) :
    Handler Event SessionRecord := do
  sessions_update { session with status := "busy".toList }
  require .store (← ask (.append_message turn.user_message))
  let events ← require .agent_host (← ask .send_message)
  require .store (← ask (.append_message (assistant_message_from_events externals turn events)))
  let session ← require_session
  let upstream ← ask .get_session
  let session := { session with status :=
    match upstream with
    | .ok upstream => upstream.status.getD session.status
    | .error _ => session.status }
  sessions_update session
  pure session

/-- `run_turn`. -/
def run_turn (externals : Externals Event) (turn : Turn) : Handler Event SessionRecord := do
  let _ ← require_chat_session
  let session ← ensure_chat_runtime
  require_available_runtime session
  with_active_turn turn.turn_id (run_registered_turn externals turn session)

end Handlers

/-! ## The calls of the parts -/

section Calls

variable {Event α ε : Type} {p : Call Event → Prop}

theorem only_ask {c : Call Event} (h : p c) : Prog.OnlyE p (Handler.ask c) :=
  Prog.Only.bind (Prog.Only.lift h) fun _ => trivial

theorem only_require (f : ε → ApiError) (answer : Except ε α) :
    Prog.OnlyE p (Handler.require f answer) := by
  cases answer <;> trivial

theorem only_return_error_if (condition : Prop) [Decidable condition] (error : ApiError) :
    Prog.OnlyE p (Handler.return_error_if condition error) := by
  unfold Handler.return_error_if
  split_ifs <;> trivial

theorem only_require_session (h : p .get) : Prog.OnlyE p require_session := by
  refine .bind (only_ask h) fun answer => .bind (only_require _ _) fun session => ?_
  cases session <;> trivial

theorem only_require_chat_session (h : p .get) : Prog.OnlyE p require_chat_session :=
  Prog.OnlyE.bind (only_require_session h) fun _ =>
    Prog.OnlyE.bind (only_return_error_if _ _) fun _ => .pure

theorem only_require_cli_session (externals : Externals Event) (h : p .get) (h' : p .configuration) :
    Prog.OnlyE p (require_cli_session externals) :=
  Prog.OnlyE.bind (only_require_session h) fun _ =>
    Prog.OnlyE.bind (only_require _ _) fun _ =>
      Prog.OnlyE.bind (only_ask h') fun _ =>
        Prog.OnlyE.bind (only_require _ _) fun _ =>
          Prog.OnlyE.bind (only_require _ _) fun _ => .pure

theorem only_require_cli_runtime (externals : Externals Event) (h : p .get) (h' : p .configuration) :
    Prog.OnlyE p (require_cli_runtime externals) :=
  Prog.OnlyE.bind (only_require_cli_session externals h h') fun _ =>
    Prog.OnlyE.bind (only_return_error_if _ _) fun _ =>
      Prog.OnlyE.bind (only_return_error_if _ _) fun _ => .pure

theorem only_with_lifecycle {body : Handler Event α} (hlock : p .lock) (hunlock : p .unlock)
    (h : Prog.OnlyE p body) : Prog.OnlyE p (Handler.with_lifecycle body) :=
  Prog.Only.bind (Prog.Only.lift hlock) fun _ => Prog.Only.bind h fun _ =>
    Prog.Only.bind (Prog.Only.lift hunlock) fun _ => trivial

theorem only_with_active_turn {turn_id : Text} {body : Handler Event α}
    (hbegin : p (.begin_active_turn turn_id)) (hdrop : p (.drop_active_turn turn_id))
    (h : Prog.OnlyE p body) : Prog.OnlyE p (Handler.with_active_turn turn_id body) :=
  Prog.OnlyE.bind (only_ask hbegin) fun _ => .bind (only_require _ _) fun _ =>
    Prog.Only.bind h fun _ => Prog.Only.bind (Prog.Only.lift hdrop) fun _ => trivial

section NotTurn

variable (hp : ∀ c : Call Event, ¬c.IsTurn → p c)
include hp

variable (session : SessionRecord)

theorem only_sessions_update : Prog.OnlyE p (sessions_update session) :=
  Prog.OnlyE.bind (only_ask (hp _ id)) fun _ => only_require _ _

theorem only_mark_runtime_error (error : ApiError) :
    Prog.OnlyE p (mark_runtime_error session error : Handler Event α) :=
  Prog.OnlyE.bind (only_sessions_update hp _) fun _ => .throw

theorem only_require_or_mark (f : ε → ApiError) (answer : Except ε α) :
    Prog.OnlyE p (require_or_mark session f answer) := by
  cases answer with
  | ok a => exact .pure
  | error e => exact only_mark_runtime_error hp session (f e)

theorem only_persist_runtime (session : SessionRecord) : Prog.OnlyE p (persist_runtime session) := by
  refine .bind (only_ask (hp _ id)) fun answer => ?_
  cases answer with
  | ok _ => exact .pure
  | error e => exact .bind (only_ask (hp _ id)) fun _ => .throw

theorem only_apply_terminal_runtime_status (terminal : Terminal) :
    Prog.OnlyE p (apply_terminal_runtime_status session terminal) := by
  unfold apply_terminal_runtime_status
  cases terminal.state with
  | none => exact .throw
  | some terminal_state =>
    exact .bind (only_require _ _) fun _ => .bind (only_ask (hp _ id)) fun _ =>
      Prog.OnlyE.bind (only_require _ _) fun _ => .pure

theorem only_ensure_cli_runtime_locked (externals : Externals Event) (session : SessionRecord) :
    Prog.OnlyE p (ensure_cli_runtime_locked externals session) := by
  refine Prog.OnlyE.bind ?_ fun validated => ?_
  · exact Prog.Only.bind (only_require_cli_session externals (hp _ id) (hp _ id)) fun _ => trivial
  refine .bind (only_require_or_mark hp _ _ _) fun _ => ?_
  refine .bind (only_ask (hp _ id)) fun launch => ?_
  refine .bind (only_require_or_mark hp _ _ _) fun _ => ?_
  refine .bind (only_ask (hp _ id)) fun created => ?_
  refine .bind (only_require_or_mark hp _ _ _) fun upstream => ?_
  refine .bind (only_require_or_mark hp _ _ _) fun _ => ?_
  refine .bind (only_persist_runtime hp _) fun _ => ?_
  refine .bind (only_ask (hp _ id)) fun ensured => ?_
  refine .bind (only_require_or_mark hp _ _ _) fun terminal => ?_
  exact .bind (only_apply_terminal_runtime_status hp _ _) fun _ => .pure

theorem only_ensure_chat_runtime_locked : Prog.OnlyE p (ensure_chat_runtime_locked session) := by
  unfold ensure_chat_runtime_locked
  split_ifs
  · refine .bind (only_ask (hp _ id)) fun answer => ?_
    have hupdate : ∀ session' : SessionRecord,
        Prog.OnlyE p (do sessions_update session'; pure session') := fun session' =>
      Prog.OnlyE.bind (only_sessions_update hp _) fun _ => .pure
    match answer with
    | .ok ⟨_, some status, _, _⟩ => exact hupdate _
    | .ok ⟨_, none, _, _⟩ => exact .pure
    | .error (.Other detail) => exact .throw
    | .error (.HttpStatus status) =>
      dsimp only
      split
      · rename_i h
        cases h
      · exact hupdate _
      · exact .throw
  · refine .bind (only_ask (hp _ id)) fun env => ?_
    refine .bind (only_require_or_mark hp _ _ _) fun _ => ?_
    refine .bind (only_ask (hp _ id)) fun created => ?_
    refine .bind (only_require_or_mark hp _ _ _) fun upstream => ?_
    refine .bind (only_require_or_mark hp _ _ _) fun _ => ?_
    refine .bind (only_require_or_mark hp _ _ _) fun status => ?_
    exact .bind (only_persist_runtime hp _) fun _ => .pure

theorem only_ensure_chat_runtime : Prog.OnlyE p (ensure_chat_runtime : Handler Event SessionRecord) :=
  only_with_lifecycle (hp _ id) (hp _ id) <|
    Prog.OnlyE.bind (only_require_chat_session (hp _ id)) fun _ =>
      only_ensure_chat_runtime_locked hp _

theorem only_reset_session : Prog.OnlyE p (reset_session : Handler Event SessionRecord) := by
  refine only_with_lifecycle (hp _ id) (hp _ id) ?_
  refine .bind (only_require_chat_session (hp _ id)) fun session => ?_
  refine .bind (only_ensure_chat_runtime_locked hp _) fun session => ?_
  refine .bind (only_return_error_if _ _) fun _ => ?_
  refine .bind (only_ask (hp _ id)) fun answer => ?_
  refine .bind (only_require_or_mark hp _ _ _) fun upstream => ?_
  refine .bind (only_require_or_mark hp _ _ _) fun _ => ?_
  refine .bind (only_require_or_mark hp _ _ _) fun status => ?_
  refine .bind (only_ask (hp _ id)) fun cleared => ?_
  refine .bind (only_require _ _) fun _ => ?_
  exact .bind (only_sessions_update hp _) fun _ => .pure

variable {externals : Externals Event} {turn : Turn}

theorem only_receive_events (hupdate : ∀ events,
      p (.update_message false (assistant_message_from_events externals turn events)))
    (stream : List (Except AgentHostError Event)) (events : List Event) :
    Prog.OnlyE p (receive_events externals turn events stream) := by
  induction stream generalizing events with
  | nil => exact .bind (only_ask (hp _ id)) fun _ => .pure
  | cons item rest ih =>
    cases item with
    | error e => exact .bind (only_ask (hp _ id)) fun _ => .pure
    | ok event =>
      refine .bind (only_ask (hp _ id)) fun _ => ?_
      refine .bind (only_ask (hupdate _)) fun answer => ?_
      cases answer with
      | ok _ => exact ih _
      | error e => exact .pure

/-- The end of a turn: the status that is restored. -/
theorem only_restore {f : SessionRecord → Except AgentHostError Upstream → SessionRecord} :
    Prog.OnlyE p (do
      let session ← require_session
      let upstream ← Handler.ask .get_session
      sessions_update (f session upstream)
      pure (f session upstream) : Handler Event SessionRecord) :=
  Prog.OnlyE.bind (only_require_session (hp _ id)) fun _ =>
    Prog.OnlyE.bind (only_ask (hp _ id)) fun _ =>
      Prog.OnlyE.bind (only_sessions_update hp _) fun _ => .pure

theorem only_stream_message
    (hbegin : p (.begin_active_turn turn.turn_id)) (hdrop : p (.drop_active_turn turn.turn_id))
    (huser : p (.append_message turn.user_message)) (hempty : p (.append_message turn.empty_message))
    (hupdate : ∀ final events,
      p (.update_message final (assistant_message_from_events externals turn events))) :
    Prog.OnlyE p (stream_message externals turn) := by
  refine .bind (only_require_chat_session (hp _ id)) fun _ => ?_
  refine .bind (only_ensure_chat_runtime hp) fun _ => ?_
  refine .bind (only_return_error_if _ _) fun _ => ?_
  refine .bind (only_require_chat_session (hp _ id)) fun session => ?_
  refine only_with_active_turn hbegin hdrop (Prog.OnlyE.bind ?_ fun _ => .bind ?_ fun stream =>
    Prog.OnlyE.bind ?_ fun received => .bind ?_ fun _ => ?_)
  · refine .bind (only_sessions_update hp _) fun _ => ?_
    refine .bind (only_ask huser) fun _ => .bind (only_require _ _) fun _ => ?_
    exact .bind (only_ask hempty) fun _ => only_require _ _
  · exact only_ask (hp _ id)
  · cases stream with
    | ok stream => exact only_receive_events hp (hupdate false) stream []
    | error e => exact .pure
  · exact only_ask (hupdate true _)
  · exact .bind (only_require _ _) fun _ => only_restore hp

theorem only_run_turn
    (hbegin : p (.begin_active_turn turn.turn_id)) (hdrop : p (.drop_active_turn turn.turn_id))
    (huser : p (.append_message turn.user_message))
    (happend : ∀ events, p (.append_message (assistant_message_from_events externals turn events))) :
    Prog.OnlyE p (run_turn externals turn) := by
  refine .bind (only_require_chat_session (hp _ id)) fun _ => ?_
  refine .bind (only_ensure_chat_runtime hp) fun _ => ?_
  refine .bind (only_return_error_if _ _) fun _ => ?_
  refine only_with_active_turn hbegin hdrop ?_
  refine .bind (only_sessions_update hp _) fun _ => ?_
  refine .bind (only_ask huser) fun _ => .bind (only_require _ _) fun _ => ?_
  refine .bind (only_ask (hp _ id)) fun _ => .bind (only_require _ _) fun _ => ?_
  refine .bind (only_ask (happend _)) fun _ => .bind (only_require _ _) fun _ => ?_
  exact only_restore hp

end NotTurn

end Calls

/-! ## Requests -/

/-- The requests to a session. -/
inductive Request where
  | terminal_status
  | terminal_websocket
  | terminal_ensure
  | terminal_resume
  | terminal_stop
  | get_session
  | kill_kernel (kernel_session_id : Text)
  | reset_session
  | stream_message (turn : Turn)
  | send_message (turn : Turn)

/-- The program of a request; what it returns is left out. -/
def handler {Event : Type} (externals : Externals Event) : Request →
    Prog (Call Event) Reply (Except ApiError Unit)
  | .terminal_status => (do let _ ← terminal_status externals : Handler Event Unit).run
  | .terminal_websocket => (terminal_websocket externals).run
  | .terminal_ensure => (do let _ ← terminal_ensure externals : Handler Event Unit).run
  | .terminal_resume => (do let _ ← terminal_resume externals : Handler Event Unit).run
  | .terminal_stop => (do let _ ← terminal_stop externals : Handler Event Unit).run
  | .get_session => (do let _ ← get_session : Handler Event Unit).run
  | .kill_kernel kernel_session_id => (kill_kernel kernel_session_id).run
  | .reset_session => (do let _ ← reset_session : Handler Event Unit).run
  | .stream_message turn => (do let _ ← stream_message externals turn : Handler Event Unit).run
  | .send_message turn => (do let _ ← run_turn externals turn : Handler Event Unit).run

/-- The requests as threads, before any of them is begun. -/
def requested {ι Event σ : Type} (externals : Externals Event) (requests : ι → Request) (s : σ) :
    Threads ι (Call Event) (Except ApiError Unit) σ Reply :=
  ⟨s, fun i => handler externals (requests i)⟩

end AgentSpace.Sessions
