/-
One session of the client service: its record and the calls its handlers make.

The handlers of `client_service_rs/src/api.rs` keep what they know of a session in its stored
record, in `active_turns` and in the lifecycle lock. `AppState` is here the part of it that
belongs to one session. Every call of the session store is one atomic step, and so are taking
and leaving the lock; a request to the agent host is a step of its own, at which other
handlers run. What it answers, and what is read of the configuration, is a choice of the
environment, and so is a failure of the store.
-/
import AgentSpace.Text
import AgentSpace.Lib.Threads

set_option autoImplicit false

namespace AgentSpace.Sessions

open Text Lib

/-! ## Records -/

/-- `MessageRole`. -/
inductive MessageRole where
  | User
  | Assistant
  | System
  deriving DecidableEq

/-- `ToolCallRecord`. -/
structure ToolCallRecord where
  tool : Text
  tool_call_id : Option Text
  status : Option Text
  kind : Option Text
  input : Option Text
  output : Option Text
  content_offset : Option ℕ
  deriving DecidableEq

/-- `MessageRecord`, of the one session. -/
structure MessageRecord where
  message_id : Text
  role : MessageRole
  content : Text
  created_at : Text
  tool_calls : List ToolCallRecord
  reasoning : Text
  deriving DecidableEq

/-- `InteractionMode`. -/
inductive InteractionMode where
  | Chat
  | Cli
  deriving DecidableEq

/-- `RuntimeStatus`. -/
inductive RuntimeStatus where
  | Starting
  | Live
  | Exited
  | Disconnected
  | Error
  deriving DecidableEq

/-- `RecoveryState`. -/
inductive RecoveryState where
  | Recoverable
  | LegacyUnrecoverable
  deriving DecidableEq

/-- `CliLaunchSnapshot`, as far as `require_cli_session` reads it: the version, the
connection of the provider and the identity of the profile. -/
structure CliLaunchSnapshot where
  schema_version : ℕ
  provider_connection_id : Option Text
  agent_profile_identity : Option Text
  deriving DecidableEq

/-- `SessionRecord`, as far as the handlers read or write it. -/
structure SessionRecord where
  session_id : Text
  agent_host_session_id : Text
  status : Text
  interaction_mode : InteractionMode
  /-- `cli_harness`: there is one kind. -/
  has_cli_harness : Bool
  cli_connection_id : Option Text
  harness_session_id : Option Text
  runtime_generation : Option UInt64
  runtime_status : Option RuntimeStatus
  workspace_volume_identity : Option Text
  launch_snapshot : Option CliLaunchSnapshot
  vscode_url : Option Text
  free_port_url : Option Text
  created_at : Text
  messages : List MessageRecord
  deriving DecidableEq

/-- `SessionRecord::recovery_state`. -/
def SessionRecord.recovery_state (session : SessionRecord) : RecoveryState :=
  if session.workspace_volume_identity.isSome then .Recoverable else .LegacyUnrecoverable

/-! ## The two stores -/

/-- `StoreError`. -/
inductive StoreError where
  | SessionNotFound
  | LockPoisoned (store : Text)
  | Persistence (store detail : Text)
  deriving DecidableEq

/-- `SessionStore`: which of the two implementations is used. -/
inductive SessionStore where
  | InMemory
  | Sqlite
  deriving DecidableEq

/-- `optional_u64_to_i64`. -/
def optional_u64_to_i64 (value : Option UInt64) : Except StoreError (Option ℤ) :=
  match value with
  | none => .ok none
  | some value =>
    if value.toNat < 2 ^ 63 then .ok (some value.toNat)
    else .error (.Persistence "sessions".toList "runtime_generation is too large".toList)

namespace SessionStore

/-- `update` of the stored record. In memory the record is replaced; in the database its
columns are, and the messages are in a table of their own. -/
def update (store : SessionStore) (stored : Option SessionRecord) (session : SessionRecord) :
    Except StoreError SessionRecord :=
  match stored with
  | none => .error .SessionNotFound
  | some existing =>
    match store with
    | InMemory => .ok session
    | Sqlite =>
      (optional_u64_to_i64 session.runtime_generation).map fun _ =>
        { session with created_at := existing.created_at, messages := existing.messages }

/-- The messages after `upsert_message` of the database. -/
def upsert_message (message : MessageRecord) : List MessageRecord → List MessageRecord
  | [] => [message]
  | existing :: rest =>
    if existing.message_id = message.message_id then
      { message with created_at := existing.created_at } :: rest
    else existing :: upsert_message message rest

/-- The messages after `update_message` in memory. -/
def replace_message (message : MessageRecord) : List MessageRecord → List MessageRecord
  | [] => [message]
  | existing :: rest =>
    if existing.message_id = message.message_id then message :: rest
    else existing :: replace_message message rest

/-- `append_message`. -/
def append_message (store : SessionStore) (message : MessageRecord) (stored : Option SessionRecord) :
    Except StoreError SessionRecord :=
  match stored with
  | none => .error .SessionNotFound
  | some session =>
    .ok { session with messages :=
      match store with
      | InMemory => session.messages ++ [message]
      | Sqlite => upsert_message message session.messages }

/-- `update_message`. -/
def update_message (store : SessionStore) (message : MessageRecord) (stored : Option SessionRecord) :
    Except StoreError SessionRecord :=
  match stored with
  | none => .error .SessionNotFound
  | some session =>
    .ok { session with messages :=
      match store with
      | InMemory => replace_message message session.messages
      | Sqlite => upsert_message message session.messages }

/-- `clear_messages`. -/
def clear_messages (stored : Option SessionRecord) : Except StoreError SessionRecord :=
  match stored with
  | none => .error .SessionNotFound
  | some session => .ok { session with messages := [] }

end SessionStore

/-! ## Calls -/

/-- `AgentHostError`, as far as it is told apart. -/
inductive AgentHostError where
  | HttpStatus (status : ℕ)
  | Other (detail : Text)
  deriving DecidableEq

/-- An answer of the agent host about a session: the strings that the handlers look for. -/
structure Upstream where
  session_id : Option Text
  status : Option Text
  vscode_url : Option Text
  free_port_url : Option Text
  deriving DecidableEq

/-- An answer of the agent host about a terminal. -/
structure Terminal where
  state : Option Text
  attach_kind : Option Text
  exit_status : Option ℤ
  attachment_count : Option ℕ
  deriving DecidableEq

/-- `ApiError`, by where it arises. -/
inductive ApiError where
  | store (error : StoreError)
  | agent_host (error : AgentHostError)
  | terminal_upstream (error : AgentHostError)
  | configuration (detail : Text)
  | session_not_found
  | uses_cli_mode
  | not_cli_mode
  | legacy_unrecoverable
  | invalid_workspace_identity
  | unstable_agent_host_mapping
  | no_cli_harness
  | no_launch_snapshot
  | unsupported_snapshot_version (version : ℕ)
  | no_harness_session_id
  | invalid_harness_session_id
  | inconsistent_connection_snapshot
  | no_provider_snapshot
  | inconsistent_profile_snapshot
  | no_stable_runtime
  | runtime_not_available
  | terminal_not_running
  | missing_string_field (field : String)
  | unexpected_identity (session_id : Text)
  | missing_state
  | unknown_state (state : Text)
  | missing_attachment_count
  | kernel_not_found
  | active_turn (turn_id : Text)
  deriving DecidableEq

/-- The calls of the handlers; `Event` is the type of kernel events. With an update goes
the terminal answer that it applies, if it is made for one, and with the update of a message
whether it is the last one of a streaming turn. -/
inductive Call (Event : Type) where
  | get
  | list
  | update (applied : Option Terminal) (session : SessionRecord)
  | append_message (message : MessageRecord)
  | update_message (final : Bool) (message : MessageRecord)
  | clear_messages
  | lock
  | unlock
  | begin_active_turn (turn_id : Text)
  | drop_active_turn (turn_id : Text)
  | configuration
  | create_session
  | get_session
  | reset_session
  | destroy_session
  | list_sessions
  | terminal_status
  | terminal_ensure
  | terminal_stop
  | terminal_resume
  | connect_terminal_websocket
  | stream_message
  | next_event
  | send_message

/-- The calls that only turns make. -/
def Call.IsTurn {Event : Type} : Call Event → Prop
  | .append_message _ | .update_message .. | .begin_active_turn _ | .drop_active_turn _ => True
  | _ => False

/-- The message that a call writes. -/
def Call.message {Event : Type} : Call Event → Option MessageRecord
  | .append_message message | .update_message _ message => some message
  | _ => none

/-- What is answered. Of `list` it is what concerns the one session; a stream is what it will
deliver, one item at each `next_event`. -/
def Reply {Event : Type} : Call Event → Type
  | .get | .list => Except StoreError (Option SessionRecord)
  | .update .. | .append_message _ | .update_message .. | .clear_messages => Except StoreError Unit
  | .lock | .unlock | .drop_active_turn _ | .next_event => Unit
  | .begin_active_turn _ => Except Text Unit
  | .configuration => Except ApiError Unit
  | .create_session | .get_session | .reset_session => Except AgentHostError Upstream
  | .destroy_session | .connect_terminal_websocket => Except AgentHostError Unit
  | .list_sessions => Except AgentHostError (List Upstream)
  | .terminal_status | .terminal_ensure | .terminal_stop | .terminal_resume =>
    Except AgentHostError Terminal
  | .stream_message => Except AgentHostError (List (Except AgentHostError Event))
  | .send_message => Except AgentHostError (List Event)

/-- What the environment chooses. -/
inductive Choice (Event : Type) where
  | proceed
  | store_error (error : StoreError)
  | configuration (result : Except ApiError Unit)
  | upstream (result : Except AgentHostError Upstream)
  | terminal (result : Except AgentHostError Terminal)
  | done (result : Except AgentHostError Unit)
  | sessions (result : Except AgentHostError (List Upstream))
  | stream (result : Except AgentHostError (List (Except AgentHostError Event)))
  | events (result : Except AgentHostError (List Event))

/-- What belongs to the session in `AppState`: the stored record with its messages, the request
that holds the lifecycle lock, and the registered turn. -/
structure AppState (ι : Type) where
  sessions : Option SessionRecord
  session_lifecycle : Option ι
  active_turns : Option Text

section Exec

variable {ι Event : Type}

/-- A call of the store that writes. -/
def write (s : AppState ι) (choice : Choice Event) (result : Except StoreError SessionRecord) :
    Option (Except StoreError Unit × AppState ι) :=
  match choice with
  | .proceed =>
    match result with
    | .ok session => some (.ok (), { s with sessions := some session })
    | .error e => some (.error e, s)
  | .store_error e => some (.error e, s)
  | _ => none

/-- A call of the store that reads. -/
def read (s : AppState ι) (choice : Choice Event) :
    Option (Except StoreError (Option SessionRecord) × AppState ι) :=
  match choice with
  | .proceed => some (.ok s.sessions, s)
  | .store_error e => some (.error e, s)
  | _ => none

/-- A call that does not fail. -/
def proceed {α : Type} (choice : Choice Event) (result : Option α) : Option α :=
  match choice with
  | .proceed => result
  | _ => none

/-- The answer that is chosen about a session. -/
def Choice.as_upstream : Choice Event → Option (Except AgentHostError Upstream)
  | .upstream result => some result
  | _ => none

/-- The answer that is chosen about a terminal. -/
def Choice.as_terminal : Choice Event → Option (Except AgentHostError Terminal)
  | .terminal result => some result
  | _ => none

/-- The answer that is chosen without content. -/
def Choice.as_done : Choice Event → Option (Except AgentHostError Unit)
  | .done result => some result
  | _ => none

/-- The sessions that are chosen. -/
def Choice.as_sessions : Choice Event → Option (Except AgentHostError (List Upstream))
  | .sessions result => some result
  | _ => none

/-- The stream that is chosen. -/
def Choice.as_stream :
    Choice Event → Option (Except AgentHostError (List (Except AgentHostError Event)))
  | .stream result => some result
  | _ => none

/-- The events that are chosen. -/
def Choice.as_events : Choice Event → Option (Except AgentHostError (List Event))
  | .events result => some result
  | _ => none

/-- What is chosen of the configuration. -/
def Choice.as_configuration : Choice Event → Option (Except ApiError Unit)
  | .configuration result => some result
  | _ => none

/-- `begin_active_turn`: a turn that is registered is not replaced. -/
def begin_active_turn (turn_id : Text) (s : AppState ι) : Except Text Unit × AppState ι :=
  match s.active_turns with
  | some existing => (.error existing, s)
  | none => (.ok (), { s with active_turns := some turn_id })

/-- `ActiveTurnGuard::drop`. -/
def drop_active_turn (turn_id : Text) (s : AppState ι) : AppState ι :=
  if s.active_turns = some turn_id then { s with active_turns := none } else s

/-- What a call answers and leaves. -/
def exec (store : SessionStore) (i : ι) :
    (c : Call Event) → Choice Event → AppState ι → Option (Reply c × AppState ι)
  | .get, choice, s => read s choice
  | .list, choice, s => read s choice
  | .update _ session, choice, s => write s choice (store.update s.sessions session)
  | .append_message message, choice, s => write s choice (store.append_message message s.sessions)
  | .update_message _ message, choice, s => write s choice (store.update_message message s.sessions)
  | .clear_messages, choice, s => write s choice (SessionStore.clear_messages s.sessions)
  | .lock, choice, s =>
    if s.session_lifecycle.isNone then
      proceed choice (some ((), { s with session_lifecycle := some i }))
    else none
  | .unlock, choice, s => proceed choice (some ((), { s with session_lifecycle := none }))
  | .begin_active_turn turn_id, choice, s => proceed choice (some (begin_active_turn turn_id s))
  | .drop_active_turn turn_id, choice, s => proceed choice (some ((), drop_active_turn turn_id s))
  | .configuration, choice, s => choice.as_configuration.map fun result => (result, s)
  | .create_session, choice, s => choice.as_upstream.map fun result => (result, s)
  | .get_session, choice, s => choice.as_upstream.map fun result => (result, s)
  | .reset_session, choice, s => choice.as_upstream.map fun result => (result, s)
  | .destroy_session, choice, s => choice.as_done.map fun result => (result, s)
  | .list_sessions, choice, s => choice.as_sessions.map fun result => (result, s)
  | .terminal_status, choice, s => choice.as_terminal.map fun result => (result, s)
  | .terminal_ensure, choice, s => choice.as_terminal.map fun result => (result, s)
  | .terminal_stop, choice, s => choice.as_terminal.map fun result => (result, s)
  | .terminal_resume, choice, s => choice.as_terminal.map fun result => (result, s)
  | .connect_terminal_websocket, choice, s => choice.as_done.map fun result => (result, s)
  | .stream_message, choice, s => choice.as_stream.map fun result => (result, s)
  | .next_event, choice, s => proceed choice (some ((), s))
  | .send_message, choice, s => choice.as_events.map fun result => (result, s)

/-! ## What the calls do -/

variable {store : SessionStore} {i : ι} {s t : AppState ι}

variable {choice : Choice Event}

theorem write_eq_some {result : Except StoreError SessionRecord}
    {r : Except StoreError Unit} (h : write s choice result = some (r, t)) :
    (∃ session, result = .ok session ∧ r = .ok () ∧ t = { s with sessions := some session })
      ∨ ((∃ e, r = .error e) ∧ t = s) := by
  unfold write at h
  cases choice with
  | proceed =>
    cases result with
    | ok session =>
      obtain ⟨rfl, rfl⟩ := Prod.mk.inj (Option.some.inj h)
      exact Or.inl ⟨session, rfl, rfl, rfl⟩
    | error e =>
      obtain ⟨rfl, rfl⟩ := Prod.mk.inj (Option.some.inj h)
      exact Or.inr ⟨⟨e, rfl⟩, rfl⟩
  | store_error e =>
    obtain ⟨rfl, rfl⟩ := Prod.mk.inj (Option.some.inj h)
    exact Or.inr ⟨⟨e, rfl⟩, rfl⟩
  | _ => cases h

theorem read_eq_some {r : Except StoreError (Option SessionRecord)}
    (h : read s choice = some (r, t)) : t = s ∧ (r = .ok s.sessions ∨ ∃ e, r = .error e) := by
  unfold read at h
  cases choice with
  | proceed =>
    obtain ⟨rfl, rfl⟩ := Prod.mk.inj (Option.some.inj h)
    exact ⟨rfl, Or.inl rfl⟩
  | store_error e =>
    obtain ⟨rfl, rfl⟩ := Prod.mk.inj (Option.some.inj h)
    exact ⟨rfl, Or.inr ⟨e, rfl⟩⟩
  | _ => cases h

theorem proceed_eq_some {α : Type} {result : Option α} {a : α}
    (h : proceed choice result = some a) : result = some a := by
  unfold proceed at h
  cases choice with
  | proceed => exact h
  | _ => cases h

theorem exec_lock_eq_some {r : Reply (.lock : Call Event)} (h : exec store i .lock choice s = some (r, t)) :
    s.session_lifecycle = none ∧ t = { s with session_lifecycle := some i } := by
  simp only [exec] at h
  split_ifs at h with hfree
  have ht := congrArg Prod.snd (Option.some.inj (proceed_eq_some h))
  exact ⟨by simpa using hfree, ht.symm⟩

theorem exec_unlock_eq_some {r : Reply (.unlock : Call Event)}
    (h : exec store i .unlock choice s = some (r, t)) : t = { s with session_lifecycle := none } := by
  have ht := congrArg Prod.snd (Option.some.inj (proceed_eq_some h))
  exact ht.symm

theorem begin_active_turn_eq (turn_id : Text) (s : AppState ι) :
    (begin_active_turn turn_id s).2.sessions = s.sessions
      ∧ (begin_active_turn turn_id s).2.session_lifecycle = s.session_lifecycle := by
  unfold begin_active_turn
  cases s.active_turns <;> exact ⟨rfl, rfl⟩

theorem drop_active_turn_eq (turn_id : Text) (s : AppState ι) :
    (drop_active_turn turn_id s).sessions = s.sessions
      ∧ (drop_active_turn turn_id s).session_lifecycle = s.session_lifecycle := by
  unfold drop_active_turn
  split_ifs <;> exact ⟨rfl, rfl⟩

variable {stored : Option SessionRecord} {session : SessionRecord}

theorem append_message_eq_ok {message : MessageRecord} (h : store.append_message message stored = .ok session) :
    ∃ existing messages, stored = some existing ∧ session = { existing with messages := messages } := by
  unfold SessionStore.append_message at h
  cases stored with
  | none => cases h
  | some existing => exact ⟨existing, _, rfl, (Except.ok.inj h).symm⟩

@[inherit_doc append_message_eq_ok]
theorem update_message_eq_ok {message : MessageRecord} (h : store.update_message message stored = .ok session) :
    ∃ existing messages, stored = some existing ∧ session = { existing with messages := messages } := by
  unfold SessionStore.update_message at h
  cases stored with
  | none => cases h
  | some existing => exact ⟨existing, _, rfl, (Except.ok.inj h).symm⟩

@[inherit_doc append_message_eq_ok]
theorem clear_messages_eq_ok (h : SessionStore.clear_messages stored = .ok session) :
    ∃ existing messages, stored = some existing ∧ session = { existing with messages := messages } := by
  unfold SessionStore.clear_messages at h
  cases stored with
  | none => cases h
  | some existing => exact ⟨existing, _, rfl, (Except.ok.inj h).symm⟩

theorem update_eq_ok {session updated : SessionRecord} (h : store.update stored session = .ok updated) :
    ∃ existing messages created_at, stored = some existing
      ∧ updated = { session with messages := messages, created_at := created_at } := by
  unfold SessionStore.update at h
  cases stored with
  | none => cases h
  | some existing =>
    cases store with
    | InMemory => exact ⟨existing, session.messages, session.created_at, rfl, (Except.ok.inj h).symm⟩
    | Sqlite =>
      dsimp only at h
      cases hgeneration : optional_u64_to_i64 session.runtime_generation with
      | error e =>
        rw [hgeneration] at h
        cases h
      | ok value =>
        rw [hgeneration] at h
        exact ⟨existing, _, _, rfl, (Except.ok.inj h).symm⟩

/-- What a call leaves of the record that is not about messages. -/
def SameRecord (s t : AppState ι) : Prop :=
  t.sessions = s.sessions ∨ ∃ existing messages, s.sessions = some existing
    ∧ t.sessions = some { existing with messages := messages }

/-- The calls other than the updates and those of the lock. -/
def Call.IsQuiet : Call Event → Prop
  | .update .. | .lock | .unlock => False
  | _ => True

/-- The calls that write the record. -/
def Call.IsWrite : Call Event → Prop
  | .update .. | .append_message _ | .update_message .. | .clear_messages => True
  | _ => False

/-- The other calls leave the record as it is, and the lock unless they are about it. -/
theorem exec_of_not_write {c : Call Event} {r : Reply c} (hc : ¬c.IsWrite)
    (h : exec store i c choice s = some (r, t)) :
    t.sessions = s.sessions ∧ (c.IsQuiet → t.session_lifecycle = s.session_lifecycle) := by
  have hanswer : ∀ {α : Type} {answer : Option α} {r : α} {quiet : Prop},
      (answer.map fun result => (result, s)) = some (r, t) →
      t.sessions = s.sessions ∧ (quiet → t.session_lifecycle = s.session_lifecycle) := by
    intro α answer r quiet h
    obtain ⟨result, -, heq⟩ := Option.map_eq_some_iff.1 h
    obtain ⟨-, rfl⟩ := Prod.mk.inj heq
    exact ⟨rfl, fun _ => rfl⟩
  cases c with
  | update applied session | append_message message | update_message final message
  | clear_messages => exact absurd trivial hc
  | lock => exact ⟨by rw [(exec_lock_eq_some h).2], fun hquiet => absurd hquiet id⟩
  | unlock => exact ⟨by rw [exec_unlock_eq_some h], fun hquiet => absurd hquiet id⟩
  | get | list =>
    obtain ⟨rfl, -⟩ := read_eq_some h
    exact ⟨rfl, fun _ => rfl⟩
  | begin_active_turn turn_id =>
    have ht : (begin_active_turn turn_id s).2 = t :=
      congrArg Prod.snd (Option.some.inj (proceed_eq_some h))
    rw [← ht]
    exact ⟨(begin_active_turn_eq turn_id s).1, fun _ => (begin_active_turn_eq turn_id s).2⟩
  | drop_active_turn turn_id =>
    have ht : drop_active_turn turn_id s = t :=
      congrArg Prod.snd (Option.some.inj (proceed_eq_some h))
    rw [← ht]
    exact ⟨(drop_active_turn_eq turn_id s).1, fun _ => (drop_active_turn_eq turn_id s).2⟩
  | next_event =>
    have ht : s = t := congrArg Prod.snd (Option.some.inj (proceed_eq_some h))
    exact ⟨by rw [ht], fun _ => by rw [ht]⟩
  | configuration => exact hanswer h
  | create_session => exact hanswer h
  | get_session => exact hanswer h
  | reset_session => exact hanswer h
  | destroy_session => exact hanswer h
  | list_sessions => exact hanswer h
  | terminal_status => exact hanswer h
  | terminal_ensure => exact hanswer h
  | terminal_stop => exact hanswer h
  | terminal_resume => exact hanswer h
  | connect_terminal_websocket => exact hanswer h
  | stream_message => exact hanswer h
  | send_message => exact hanswer h

/-- **Quiet calls** leave the record up to its messages, and the lock. -/
theorem exec_quiet {c : Call Event} {r : Reply c} (hquiet : c.IsQuiet)
    (h : exec store i c choice s = some (r, t)) :
    SameRecord s t ∧ t.session_lifecycle = s.session_lifecycle := by
  have hwrite : ∀ {result : Except StoreError SessionRecord} {r : Except StoreError Unit},
      (∀ session, result = .ok session → ∃ existing messages, s.sessions = some existing
        ∧ session = { existing with messages := messages }) →
      write s choice result = some (r, t) →
      SameRecord s t ∧ t.session_lifecycle = s.session_lifecycle := by
    intro result r hresult h
    rcases write_eq_some h with ⟨session, hok, -, rfl⟩ | ⟨-, rfl⟩
    · obtain ⟨existing, messages, hstored, rfl⟩ := hresult session hok
      exact ⟨Or.inr ⟨existing, messages, hstored, rfl⟩, rfl⟩
    · exact ⟨Or.inl rfl, rfl⟩
  by_cases hc : c.IsWrite
  · cases c with
    | update applied session => exact absurd hquiet id
    | append_message message => exact hwrite (fun _ => append_message_eq_ok) h
    | update_message final message => exact hwrite (fun _ => update_message_eq_ok) h
    | clear_messages => exact hwrite (fun _ => clear_messages_eq_ok) h
    | _ => exact absurd hc id
  · obtain ⟨hsessions, hlock⟩ := exec_of_not_write hc h
    exact ⟨Or.inl hsessions, hlock hquiet⟩

end Exec

end AgentSpace.Sessions
