/-
The event stream of a turn: `AgentEventStream` of `agent_host_rs/src/sessions.rs`.

The stream passes the events of the kernel on and keeps them. When the inner stream has
ended or failed, or the consumer drops the stream, the events become a turn in the record of
the session. `finalize_stream` waits for the summary and then for the write lock, and does
the rest without waiting, so the two are one wait here.
-/
import AgentSpace.Text
import AgentSpace.Lib.Loops
import AgentSpace.Lib.Transition

set_option autoImplicit false

namespace AgentSpace.AgentHost

open Text Lib

/-! ## Records -/

/-- `KernelStatus`. -/
inductive KernelStatus where
  | Idle
  | Busy
  | Error
  | Done
  deriving DecidableEq

/-- `KernelEventType`. -/
inductive KernelEventType where
  | SessionStart
  | SessionStatus
  | SessionUpdate
  | SessionPromptResult
  | SessionError
  | SessionEnd
  | Status
  | TextDelta
  | ReasoningDelta
  | ToolCall
  | ToolResult
  | Error
  | LegacySessionStart
  | LegacySessionEnd
  | Unknown (event_type : Text)
  deriving DecidableEq

/-- `KernelEvent`; the fields that no function here reads are its payload. -/
structure KernelEvent (V : Type) where
  event_type : KernelEventType
  status : Option KernelStatus
  payload : V

/-- `RuntimeSessionSummary`. -/
structure RuntimeSessionSummary where
  status : Option KernelStatus
  resume_token : Option Text
  vscode_url : Option Text
  free_port_url : Option Text

/-- `SessionRecord`, as far as a turn changes it. -/
structure SessionRecord (V : Type) where
  history : List (List (KernelEvent V))
  status : KernelStatus
  resume_token : Option Text
  vscode_url : Option Text
  free_port_url : Option Text

/-- The records of the sessions. -/
abbrev Sessions (V : Type) := Std.ExtTreeMap Text (SessionRecord V) compare

/-- `non_empty`. -/
def non_empty (value : Option Text) : Option Text :=
  value.filter fun value => !value.isEmpty

variable {ι ρ V ε : Type}

/-- `apply_runtime_summary`. -/
def SessionRecord.apply_runtime_summary (record : SessionRecord V) (summary : RuntimeSessionSummary) :
    SessionRecord V :=
  { record with
    resume_token := non_empty summary.resume_token <|> record.resume_token
    status := summary.status.getD record.status
    vscode_url := non_empty summary.vscode_url <|> record.vscode_url
    free_port_url := non_empty summary.free_port_url <|> record.free_port_url }

/-- `derive_status`. -/
def derive_status (events : List (KernelEvent V)) (fallback_status : KernelStatus) : KernelStatus :=
  (events.reverse.findSome? fun event =>
    if event.event_type = .SessionStatus then event.status else none).getD fallback_status

/-- The turn of these events in a record. -/
def SessionRecord.push_turn (record : SessionRecord V) (events : List (KernelEvent V)) : SessionRecord V :=
  if events.isEmpty then record
  else
    { record with
      status := derive_status events record.status
      history := record.history ++ [events] }

/-- `finalize_stream`, behind its waits. -/
def record_turn (session_id : Text) (events : List (KernelEvent V))
    (runtime_summary : Except ε RuntimeSessionSummary) (sessions : Sessions V) : Sessions V :=
  match sessions[session_id]? with
  | none => sessions
  | some record =>
    let record := record.push_turn events
    match runtime_summary with
    | .ok summary => sessions.insert session_id (record.apply_runtime_summary summary)
    | .error _ => sessions.insert session_id record

/-! ## Polls -/

/-- `Poll`. -/
inductive Poll (α : Type) where
  | Ready (value : α)
  | Pending

/-- What an inner stream, and the summary of the runtime, answer when they are polled. -/
structure KernelRuntime (ι ρ V ε : Type) where
  poll_next : ι → Poll (Option (Except ε (KernelEvent V))) × ι
  summary : ρ
  poll_summary : ρ → Poll (Except ε RuntimeSessionSummary) × ρ

/-- The future of a call of `finalize_stream`. -/
structure FinalizeStream (ρ V : Type) where
  session_id : Text
  events : List (KernelEvent V)
  runtime_summary : ρ

/-- `AgentEventStream`. -/
structure AgentEventStream (ι ρ V : Type) where
  inner : Option ι
  session_id : Text
  events : List (KernelEvent V)
  finalize : Option (FinalizeStream ρ V)
  finalized : Bool

section Stream

variable (runtime : KernelRuntime ι ρ V ε)

/-- A poll of the future of `finalize_stream`; it is ready with the sessions it leaves. -/
def FinalizeStream.poll (finalize : FinalizeStream ρ V) (sessions : Sessions V) :
    Poll (Sessions V) × FinalizeStream ρ V :=
  match runtime.poll_summary finalize.runtime_summary with
  | (.Ready runtime_summary, rest) =>
    (.Ready (record_turn finalize.session_id finalize.events runtime_summary sessions),
      { finalize with runtime_summary := rest })
  | (.Pending, rest) => (.Pending, { finalize with runtime_summary := rest })

namespace AgentEventStream

/-- `new`. -/
def new (inner : ι) (session_id : Text) : AgentEventStream ι ρ V :=
  ⟨some inner, session_id, [], none, false⟩

/-- The call of `finalize_stream` with the events of the stream. -/
def finalize_stream (self : AgentEventStream ι ρ V) : FinalizeStream ρ V :=
  ⟨self.session_id, self.events, runtime.summary⟩

/-- `begin_finalize`. -/
def begin_finalize (self : AgentEventStream ι ρ V) : AgentEventStream ι ρ V :=
  if self.finalized || self.finalize.isSome then self
  else { self with inner := none, events := [], finalize := some (self.finalize_stream runtime) }

/-- The body of the loop of `poll_next`. -/
def poll_body : AgentEventStream ι ρ V × Sessions V →
    Turn (AgentEventStream ι ρ V × Sessions V)
      (Poll (Option (Except ε (KernelEvent V))) × AgentEventStream ι ρ V × Sessions V)
  | (self, sessions) =>
    match self.finalize with
    | some finalize =>
      match finalize.poll runtime sessions with
      | (.Ready sessions, _) =>
        .done (.Ready none, { self with finalize := none, finalized := true }, sessions)
      | (.Pending, finalize) => .done (.Pending, { self with finalize := some finalize }, sessions)
    | none =>
      match self.inner with
      | none => .again (self.begin_finalize runtime, sessions)
      | some inner =>
        match runtime.poll_next inner with
        | (.Ready (some (.ok event)), inner) =>
          .done (.Ready (some (.ok event)),
            { self with inner := some inner, events := self.events ++ [event] }, sessions)
        | (.Ready (some (.error error)), inner) =>
          .done (.Ready (some (.error error)),
            begin_finalize runtime { self with inner := some inner }, sessions)
        | (.Ready none, inner) =>
          .again (begin_finalize runtime { self with inner := some inner }, sessions)
        | (.Pending, inner) => .done (.Pending, { self with inner := some inner }, sessions)

/-- `drop`: the call of `finalize_stream` that is spawned. -/
def drop (self : AgentEventStream ι ρ V) : Option (FinalizeStream ρ V) :=
  if self.finalized then none
  else
    match self.finalize with
    | some finalize => some finalize
    | none => some (self.finalize_stream runtime)

end AgentEventStream

end Stream

/-! ## Runs -/

/-- A stream, until its consumer drops it, what the consumer has received of it, what was
spawned for it, and the sessions. -/
structure World (ι ρ V : Type) where
  stream : Option (AgentEventStream ι ρ V)
  received : List (KernelEvent V)
  spawned : Option (FinalizeStream ρ V)
  sessions : Sessions V

/-- A stream that has just been made. -/
def World.opened (inner : ι) (session_id : Text) (sessions : Sessions V) : World ι ρ V :=
  ⟨some (.new inner session_id), [], none, sessions⟩

/-- What happens: the consumer polls the stream and gets an answer, or drops it, the executor
polls what was spawned, or other tasks change the sessions. -/
inductive Label (V ε : Type) where
  | poll (answer : Poll (Option (Except ε (KernelEvent V))))
  | drop
  | executor
  | others

/-- The event in an answer. -/
def yielded : Poll (Option (Except ε (KernelEvent V))) → List (KernelEvent V)
  | .Ready (some (.ok event)) => [event]
  | _ => []

/-- A step. A poll that never returns is none. -/
inductive Step (runtime : KernelRuntime ι ρ V ε) : World ι ρ V → Label V ε → World ι ρ V → Prop
  | poll {w : World ι ρ V} {self self' : AgentEventStream ι ρ V} {sessions : Sessions V}
      {answer : Poll (Option (Except ε (KernelEvent V)))} (hstream : w.stream = some self)
      (hends : LoopEnds (AgentEventStream.poll_body runtime) (self, w.sessions) (answer, self', sessions)) :
      Step runtime w (.poll answer)
        { w with stream := some self', received := w.received ++ yielded answer, sessions := sessions }
  | drop {w : World ι ρ V} {self : AgentEventStream ι ρ V} (hstream : w.stream = some self) :
      Step runtime w .drop { w with stream := none, spawned := self.drop runtime }
  | executor_ready {w : World ι ρ V} {finalize rest : FinalizeStream ρ V} {sessions : Sessions V}
      (hspawned : w.spawned = some finalize)
      (hpoll : finalize.poll runtime w.sessions = (.Ready sessions, rest)) :
      Step runtime w .executor { w with spawned := none, sessions := sessions }
  | executor_pending {w : World ι ρ V} {finalize rest : FinalizeStream ρ V}
      (hspawned : w.spawned = some finalize)
      (hpoll : finalize.poll runtime w.sessions = (.Pending, rest)) :
      Step runtime w .executor { w with spawned := some rest }
  | others {w : World ι ρ V} (sessions : Sessions V) : Step runtime w .others { w with sessions := sessions }

/-- The stream has ended, or was dropped and what was spawned for it is done. -/
def Over (w : World ι ρ V) : Prop :=
  match w.stream with
  | some self => self.finalized = true
  | none => w.spawned = none

end AgentSpace.AgentHost
