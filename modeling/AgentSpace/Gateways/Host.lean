/-
`GatewayHost` of the agent host: a registry of gateways under a lock, and one container
for each of them.

`create_gateway` holds the lock until it has inserted the record; `destroy_gateway` and
`destroy_all_gateways` take records out and remove the containers after they have let go of
it. A call is one atomic step; it may fail, with its effect or without.
-/
import AgentSpace.Lib.Threads
import AgentSpace.Text

set_option autoImplicit false

namespace AgentSpace.Gateways

open Lib

/-! ## The host -/

/-- `GatewayStatus`. -/
inductive GatewayStatus where
  | Running
  | Error
  | Unknown
  | Other (status : Text)
  deriving DecidableEq

/-- `GatewayRuntimeStatus`. -/
structure GatewayRuntimeStatus where
  status : GatewayStatus
  last_error : Option Text

/-- `GatewayError`. -/
inductive GatewayError where
  | NotFound (gateway_id : Text)
  | AlreadyExists (gateway_id : Text)
  | InvalidGatewayId (gateway_id : Text)
  | Runtime (message : Text)
  | Docker (source : Text)
  | Http (source : Text)
  deriving DecidableEq

/-- `DockerGatewaySession`. -/
structure DockerGatewaySession where
  container_name : Text
  base_url : Text

/-- `GatewayRuntimeCreateRequest`. -/
structure GatewayRuntimeCreateRequest where
  gateway_id : Text
  gateway_type : Text
  agent_id : Text
  env : List (Text × Text)

/-- `GatewayRecord`. -/
structure GatewayRecord where
  gateway_id : Text
  gateway_type : Text
  agent_id : Text
  runtime_session : DockerGatewaySession
  env : List (Text × Text)

/-- `GatewaySummary`. -/
structure GatewaySummary where
  gateway_id : Text
  gateway_type : Text
  agent_id : Text
  status : GatewayStatus
  last_error : Option Text

/-- `validate_gateway_id`. -/
def valid_gateway_id (gateway_id : Text) : Bool :=
  !gateway_id.isEmpty
    && (Text.split '-' gateway_id).all fun part => !part.isEmpty && part.all fun c => 'a' ≤ c && c ≤ 'z'

/-- `format!("agentspace-gateway-{}", request.gateway_id)`. -/
def container_name (gateway_id : Text) : Text := "agentspace-gateway-".toList ++ gateway_id

theorem container_name_injective : Function.Injective container_name :=
  fun _ _ h => List.append_cancel_left h

/-- The registry, who holds its lock, and the containers that there are, each with its number in
the order of creation. -/
structure World where
  holder : Option ℕ
  records : Std.ExtTreeMap Text GatewayRecord compare
  containers : Text → Option ℕ
  next : ℕ

/-! ## Calls -/

/-- An access to the registry, or a call of the runtime. -/
inductive Call where
  | lock
  | unlock
  | get_record (gateway_id : Text)
  | insert_record (record : GatewayRecord)
  | remove_record (gateway_id : Text)
  | take_records
  | remove_container (container_name : Text)
  | create_container (container_name : Text)
  | start_container (container_name : Text)
  | wait_until_ready (base_url : Text)
  | status (base_url : Text)

/-- What a call answers. -/
abbrev Call.Answer : Call → Type
  | get_record _ | remove_record _ => Option GatewayRecord
  | take_records => List GatewayRecord
  | remove_container _ | create_container _ | start_container _ | wait_until_ready _ =>
    Except GatewayError Unit
  | status _ => Except GatewayError GatewayRuntimeStatus
  | _ => Unit

/-- What the host does not decide: whether a call of the runtime fails, whether it has its effect
all the same, and what a gateway says of itself. -/
structure Choice where
  fails : Option GatewayError
  lost : Bool
  status : GatewayRuntimeStatus

namespace Choice

/-- The call has its effect. -/
def effective (choice : Choice) : Bool := choice.fails.isNone || choice.lost

/-- What the call answers. -/
def answer {α : Type} (choice : Choice) (value : α) : Except GatewayError α :=
  match choice.fails with
  | none => .ok value
  | some error => .error error

end Choice

/-- A call. The lock cannot be taken while it is held; what is not there can be removed; a name
that is taken cannot be given to another container. -/
def exec : Exec ℕ Call Choice World Call.Answer := fun i c choice s =>
  match c with
  | .lock => if s.holder = none then some ((), { s with holder := some i }) else none
  | .unlock => some ((), { s with holder := none })
  | .get_record gateway_id => some (s.records[gateway_id]?, s)
  | .insert_record record =>
    some ((), { s with records := s.records.insert record.gateway_id record })
  | .remove_record gateway_id =>
    some (s.records[gateway_id]?, { s with records := s.records.erase gateway_id })
  | .take_records => some (s.records.toList.map Prod.snd, { s with records := ∅ })
  | .remove_container name =>
    some (choice.answer (), if choice.effective then
      { s with containers := Function.update s.containers name none } else s)
  | .create_container name =>
    if (s.containers name).isSome then some (.error (.Docker "Conflict".toList), s)
    else some (choice.answer (), if choice.effective then
      { s with containers := Function.update s.containers name (some s.next), next := s.next + 1 }
      else s)
  | .start_container _ => some (choice.answer (), s)
  | .wait_until_ready _ => some (choice.answer (), s)
  | .status _ => some (choice.answer choice.status, s)

/-! ## `GatewayHost` -/

/-- A part of a handler, which may fail. -/
abbrev Handler := ExceptT GatewayError (Prog Call Call.Answer)

/-- A call that does not fail. -/
def access (c : Call) : Handler c.Answer := ExceptT.lift (Prog.lift c)

/-- What is done under the lock. -/
def locked {α : Type} (body : Handler α) : Handler α :=
  ExceptT.mk do
    Prog.lift Call.lock
    let answer ← body.run
    Prog.lift Call.unlock
    pure answer

/-- `summary_with_status`. -/
def GatewayRecord.summary_with_status (record : GatewayRecord) (status : GatewayRuntimeStatus) :
    GatewaySummary :=
  ⟨record.gateway_id, record.gateway_type, record.agent_id, status.status, status.last_error⟩

section Host

variable (base_url_for : Text → Text) (describe : GatewayError → Text)

/-- `DockerGatewayRuntime::create_gateway`. -/
def runtime_create_gateway (request : GatewayRuntimeCreateRequest) : Handler DockerGatewaySession := do
  let name := container_name request.gateway_id
  let base_url := base_url_for name
  (ExceptT.mk (Prog.lift (Call.remove_container name)) : Handler Unit)
  (ExceptT.mk (Prog.lift (Call.create_container name)) : Handler Unit)
  (ExceptT.mk (Prog.lift (Call.start_container name)) : Handler Unit)
  (ExceptT.mk (Prog.lift (Call.wait_until_ready base_url)) : Handler Unit)
  pure ⟨name, base_url⟩

/-- `DockerGatewayRuntime::destroy_gateway`. -/
def runtime_destroy_gateway (session : DockerGatewaySession) : Handler Unit :=
  ExceptT.mk (Prog.lift (Call.remove_container session.container_name))

/-- `create_gateway`, under the lock. -/
def register (request : GatewayRuntimeCreateRequest) : Handler GatewayRecord := do
  let existing ← access (Call.get_record request.gateway_id)
  if Option.isSome existing then throw (.AlreadyExists request.gateway_id)
  else do
    let runtime_session ← runtime_create_gateway base_url_for request
    let record := ⟨request.gateway_id, request.gateway_type, request.agent_id, runtime_session,
      request.env⟩
    access (Call.insert_record record)
    pure record

/-- `summary_with_status` of the host. -/
def summary_with_status (record : GatewayRecord) : Handler GatewaySummary := do
  let status ← ExceptT.lift (Prog.lift (Call.status record.runtime_session.base_url))
  match status with
  | .ok status => pure (record.summary_with_status status)
  | .error error => pure (record.summary_with_status ⟨.Error, some (describe error)⟩)

/-- `create_gateway`. -/
def create_gateway (request : GatewayRuntimeCreateRequest) : Handler GatewaySummary := do
  if valid_gateway_id request.gateway_id then do
    let record ← locked (register base_url_for request)
    summary_with_status describe record
  else throw (.InvalidGatewayId request.gateway_id)

/-- `destroy_gateway`, under the lock. -/
def take_record (gateway_id : Text) : Handler GatewayRecord := do
  let record ← access (Call.remove_record gateway_id)
  match record with
  | some record => pure record
  | none => throw (.NotFound gateway_id)

/-- `destroy_gateway`. -/
def destroy_gateway (gateway_id : Text) : Handler Unit := do
  let record ← locked (take_record gateway_id)
  runtime_destroy_gateway record.runtime_session

/-- The loop of `destroy_all_gateways`: what fails is logged. -/
def destroy_records : List GatewayRecord → Handler Unit
  | [] => pure ()
  | record :: records => do
    let _ ← ExceptT.lift (runtime_destroy_gateway record.runtime_session).run
    destroy_records records

/-- `destroy_all_gateways`. -/
def destroy_all_gateways : Handler Unit := do
  let records ← locked (access Call.take_records)
  destroy_records records

/-- A call of the host. -/
inductive Request where
  | create_gateway (request : GatewayRuntimeCreateRequest)
  | destroy_gateway (gateway_id : Text)
  | destroy_all_gateways

/-- What a call does. -/
def Request.program : Request → Prog Call Call.Answer (Except GatewayError (Option GatewaySummary))
  | create_gateway request =>
    (some <$> Gateways.create_gateway base_url_for describe request : Handler _).run
  | destroy_gateway gateway_id =>
    ((fun _ => none) <$> Gateways.destroy_gateway gateway_id : Handler _).run
  | destroy_all_gateways => ((fun _ => none) <$> Gateways.destroy_all_gateways : Handler _).run

/-- The host at the start, with its calls. -/
def start (requests : ℕ → Request) : Threads ℕ Call (Except GatewayError (Option GatewaySummary)) World
    Call.Answer where
  state := ⟨none, ∅, fun _ => none, 0⟩
  rest i := (requests i).program base_url_for describe

end Host

end AgentSpace.Gateways
