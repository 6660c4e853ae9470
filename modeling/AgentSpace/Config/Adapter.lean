/-
The records of a document and the edits through them: `client_service_rs/src/config/adapter.rs`.

A record is flat: maps of values become texts, and references to secrets are left out
or become empty. An edit puts a record back into the document and keeps what the record
cannot say.
-/
import AgentSpace.Config.Environment
import AgentSpace.Config.Canonical
import AgentSpace.Config.Validation

set_option autoImplicit false

namespace AgentSpace.Config

open Text Lib

/-! ## Errors -/

/-- `StoreError`, as far as the configuration returns it. -/
inductive StoreError where
  | AgentAlreadyExists (agent_id : Text)
  | AgentNotFound (agent_id : Text)
  | ConnectionAlreadyExists (connection_id : Text)
  | ConnectionNotFound (connection_id : Text)
  | GatewayAlreadyExists (gateway_id : Text)
  | GatewayNotFound (gateway_id : Text)
  | LockPoisoned (store : String)
  | Persistence (store : String) (detail : Text)
  deriving DecidableEq

/-! ## Values -/

/-- `literal_or_empty`. -/
def literal_or_empty (value : ConfigValue Text) : Text :=
  match value with
  | .Literal literal => literal
  | .Secret _ => []

/-- `text_to_env`. -/
def text_to_env (env_vars : Text) : Option Text := if trim env_vars = [] then none else some env_vars

/-- `merge_env`. -/
def merge_env (existing_env : Option ValueMap) (existing_env_text : Option Text)
    (incoming_text : Text) : Option ValueMap × Option Text :=
  if env_to_text existing_env existing_env_text = incoming_text then (existing_env, existing_env_text)
  else (none, text_to_env incoming_text)

/-- `merge_required_value`. -/
def merge_required_value (existing : ConfigValue Text) (incoming : Text) : ConfigValue Text :=
  match existing with
  | .Secret name => if incoming = [] then .Secret name else .Literal incoming
  | .Literal _ => .Literal incoming

/-- The literals of a map. -/
def literals (map : ValueMap) : TextMap :=
  Std.ExtTreeMap.ofList (map.toList.filterMap fun p =>
    p.2.as_literal.map fun literal => (p.1, literal)) compare

/-- `merge_gateway_secrets`. -/
def merge_gateway_secrets (existing : ValueMap) (incoming : TextMap) : ValueMap :=
  if literals existing = incoming then existing
  else
    let merged := existing.toList.foldl (fun (merged : ValueMap) p =>
      if p.2.is_secret ∧ p.1 ∉ incoming then merged.insert p.1 p.2 else merged) ∅
    incoming.toList.foldl (fun merged p => merged.insert p.1 (.Literal p.2)) merged

/-! ## The first of its kind -/

/-- What `iter_mut().find` is used for: the first item of which something holds is
changed, if there is one. -/
def patch_first {α : Type} (found : α → Bool) (patch : α → α) : List α → Option (List α)
  | [] => none
  | item :: rest =>
    if found item then some (patch item :: rest) else (patch_first found patch rest).map (item :: ·)

/-! ## Agents -/

/-- `AgentCliRecord`. -/
structure AgentCliRecord where
  harness : CliHarnessName
  connection_id : Option Text

/-- `AgentRecord`. -/
structure AgentRecord where
  agent_id : Text
  name : Text
  harness : HarnessName
  system_prompt : Text
  skills : List Text
  env_vars : Text
  connection_id : Option Text
  cli : Option AgentCliRecord

/-- The part of an agent about its command line. -/
def AgentCliRecord.to_config (cli : AgentCliRecord) : AgentCliConfig := ⟨cli.harness, cli.connection_id⟩

/-- `record_to_agent`. -/
def record_to_agent (record : AgentRecord) : Agent where
  id := record.agent_id
  name := record.name
  harness := record.harness
  connection := record.connection_id
  cli := record.cli.map AgentCliRecord.to_config
  system_prompt := .Literal record.system_prompt
  skills := record.skills
  env := none
  env_text := text_to_env record.env_vars

/-- `agent_to_record`. -/
def agent_to_record (agent : Agent) : AgentRecord where
  agent_id := agent.id
  name := agent.name
  harness := agent.harness
  system_prompt := literal_or_empty agent.system_prompt
  skills := agent.skills
  env_vars := env_to_text agent.env agent.env_text
  connection_id := agent.connection
  cli := agent.cli.map fun cli => ⟨cli.harness, cli.connection⟩

/-- `patch_agent`. -/
def patch_agent (record : AgentRecord) (slot : Agent) : Agent :=
  let merged := merge_env slot.env slot.env_text record.env_vars
  { slot with
    name := record.name
    harness := record.harness
    system_prompt := merge_required_value slot.system_prompt record.system_prompt
    skills := record.skills
    connection := record.connection_id
    cli := record.cli.map AgentCliRecord.to_config
    env := merged.1
    env_text := merged.2 }

section Agents

variable (document : ConfigDocument)

/-- `get_agent`. -/
def get_agent (agent_id : Text) : Option AgentRecord :=
  (document.spec.agents.find? fun item => item.id = agent_id).map agent_to_record

/-- The document with other agents. -/
def with_agents (agents : List Agent) : ConfigDocument :=
  { document with spec := { document.spec with agents := agents } }

/-- The edit of `insert_agent`. -/
def insert_agent (record : AgentRecord) : Except StoreError ConfigDocument :=
  let agent := record_to_agent record
  if agent.id ∈ document.spec.agents.map (·.id) then .error (.AgentAlreadyExists agent.id)
  else .ok (with_agents document (document.spec.agents ++ [agent]))

/-- The edit of `update_agent`. -/
def update_agent (record : AgentRecord) : Except StoreError ConfigDocument :=
  match patch_first (fun item => item.id = record.agent_id) (patch_agent record)
      document.spec.agents with
  | none => .error (.AgentNotFound record.agent_id)
  | some agents => .ok (with_agents document agents)

/-- The edit of `upsert_agent`. -/
def upsert_agent (record : AgentRecord) : Except StoreError ConfigDocument :=
  .ok (with_agents document ((patch_first (fun item => item.id = record.agent_id)
    (patch_agent record) document.spec.agents).getD
      (document.spec.agents ++ [record_to_agent record])))

/-- The edit of `add_agent_skill`. -/
def add_agent_skill (agent_id skill_id : Text) : Except StoreError ConfigDocument :=
  match patch_first (fun item => item.id = agent_id) (fun agent =>
      if skill_id ∈ agent.skills then agent else { agent with skills := agent.skills ++ [skill_id] })
      document.spec.agents with
  | none => .error (.AgentNotFound agent_id)
  | some agents => .ok (with_agents document agents)

/-- The edit of `delete_agent`. -/
def delete_agent (agent_id : Text) : Except StoreError ConfigDocument :=
  .ok (with_agents document (document.spec.agents.filter fun item => item.id ≠ agent_id))

end Agents

/-! ## Connections -/

/-- `ConnectionRecord`. -/
structure ConnectionRecord where
  connection_id : Text
  name : Text
  url : Text
  api_flavor : ConnectionApiFlavor
  api_key : Text
  api_key_secret : Option SecretName

/-- `connection_api_key_value`. -/
def connection_api_key_value (record : ConnectionRecord) : Option (ConfigValue Text) :=
  match record.api_key_secret with
  | some name => some (.Secret name)
  | none => if record.api_key = [] then none else some (.Literal record.api_key)

/-- `record_to_connection`. -/
def record_to_connection (record : ConnectionRecord) : Connection where
  id := record.connection_id
  name := record.name
  url := .Literal record.url
  api_flavor := record.api_flavor
  api_key := connection_api_key_value record

/-- `connection_to_record`. -/
def connection_to_record (connection : Connection) : ConnectionRecord where
  connection_id := connection.id
  name := connection.name
  url := literal_or_empty connection.url
  api_flavor := connection.api_flavor
  api_key := (connection.api_key.map literal_or_empty).getD []
  api_key_secret := connection.api_key.bind ConfigValue.secret_name

/-- `patch_connection`. -/
def patch_connection (record : ConnectionRecord) (slot : Connection) : Connection :=
  { slot with
    name := record.name
    api_flavor := record.api_flavor
    url := merge_required_value slot.url record.url
    api_key := connection_api_key_value record }

section Connections

variable (document : ConfigDocument)

/-- `get_connection`. -/
def get_connection (connection_id : Text) : Option ConnectionRecord :=
  (document.spec.connections.find? fun item => item.id = connection_id).map connection_to_record

/-- The document with other connections. -/
def with_connections (connections : List Connection) : ConfigDocument :=
  { document with spec := { document.spec with connections := connections } }

/-- The edit of `insert_connection`. -/
def insert_connection (record : ConnectionRecord) : Except StoreError ConfigDocument :=
  let connection := record_to_connection record
  if connection.id ∈ document.spec.connections.map (·.id) then
    .error (.ConnectionAlreadyExists connection.id)
  else .ok (with_connections document (document.spec.connections ++ [connection]))

/-- The edit of `update_connection`. -/
def update_connection (record : ConnectionRecord) : Except StoreError ConfigDocument :=
  match patch_first (fun item => item.id = record.connection_id) (patch_connection record)
      document.spec.connections with
  | none => .error (.ConnectionNotFound record.connection_id)
  | some connections => .ok (with_connections document connections)

/-- The edit of `upsert_connection`. -/
def upsert_connection (record : ConnectionRecord) : Except StoreError ConfigDocument :=
  .ok (with_connections document ((patch_first (fun item => item.id = record.connection_id)
    (patch_connection record) document.spec.connections).getD
      (document.spec.connections ++ [record_to_connection record])))

/-- The edit of `delete_connection`. -/
def delete_connection (connection_id : Text) : Except StoreError ConfigDocument :=
  .ok (with_connections document
    (document.spec.connections.filter fun item => item.id ≠ connection_id))

end Connections

/-! ## Gateways -/

/-- `GatewayRuntime`, with its default. -/
structure GatewayRuntime where
  status : Text := "stopped".toList
  last_error : Option Text := none
  container_name : Option Text := none

/-- `GatewayRecord`. -/
structure GatewayRecord where
  gateway_id : Text
  name : Text
  gateway_type : GatewayType
  agent_id : Text
  enabled : Bool
  env_vars : Text
  secrets : TextMap
  runtime : GatewayRuntime

/-- `record_to_gateway`. -/
def record_to_gateway (record : GatewayRecord) : Gateway where
  id := record.gateway_id
  name := record.name
  gateway_type := record.gateway_type
  agent := record.agent_id
  enabled := record.enabled
  env := none
  env_text := text_to_env record.env_vars
  secrets := record.secrets.map fun _ value => .Literal value

/-- `gateway_to_record`. -/
def gateway_to_record (runtime : GatewayRuntime) (gateway : Gateway) : GatewayRecord where
  gateway_id := gateway.id
  name := gateway.name
  gateway_type := gateway.gateway_type
  agent_id := gateway.agent
  enabled := gateway.enabled
  env_vars := env_to_text gateway.env gateway.env_text
  secrets := literals gateway.secrets
  runtime := runtime

/-- `patch_gateway`. -/
def patch_gateway (record : GatewayRecord) (slot : Gateway) : Gateway :=
  let merged := merge_env slot.env slot.env_text record.env_vars
  { slot with
    name := record.name
    gateway_type := record.gateway_type
    agent := record.agent_id
    enabled := record.enabled
    env := merged.1
    env_text := merged.2
    secrets := merge_gateway_secrets slot.secrets record.secrets }

section Gateways

variable (document : ConfigDocument)

/-- `get_gateway`; what was observed of the gateway is kept beside the document. -/
def get_gateway (runtime_of : Text → GatewayRuntime) (gateway_id : Text) : Option GatewayRecord :=
  (document.spec.gateways.find? fun item => item.id = gateway_id).map fun gateway =>
    gateway_to_record (runtime_of gateway.id) gateway

/-- The document with other gateways. -/
def with_gateways (gateways : List Gateway) : ConfigDocument :=
  { document with spec := { document.spec with gateways := gateways } }

/-- The edit of `insert_gateway`. -/
def insert_gateway (record : GatewayRecord) : Except StoreError ConfigDocument :=
  let gateway := record_to_gateway record
  if gateway.id ∈ document.spec.gateways.map (·.id) then .error (.GatewayAlreadyExists gateway.id)
  else .ok (with_gateways document (document.spec.gateways ++ [gateway]))

/-- The edit of `update_gateway`. -/
def update_gateway (record : GatewayRecord) : Except StoreError ConfigDocument :=
  match patch_first (fun item => item.id = record.gateway_id) (patch_gateway record)
      document.spec.gateways with
  | none => .error (.GatewayNotFound record.gateway_id)
  | some gateways => .ok (with_gateways document gateways)

/-- The edit of `upsert_gateway`. -/
def upsert_gateway (record : GatewayRecord) : Except StoreError ConfigDocument :=
  .ok (with_gateways document ((patch_first (fun item => item.id = record.gateway_id)
    (patch_gateway record) document.spec.gateways).getD
      (document.spec.gateways ++ [record_to_gateway record])))

/-- The edit of `delete_gateway`. -/
def delete_gateway (gateway_id : Text) : Except StoreError ConfigDocument :=
  .ok (with_gateways document (document.spec.gateways.filter fun item => item.id ≠ gateway_id))

end Gateways

/-! ## Kernel configurations -/

/-- `KernelConfigRecord`. -/
structure KernelConfigRecord where
  harness : HarnessName
  env_vars : Text

/-- `kernel_to_record`. -/
def kernel_to_record (kernel : KernelConfig) : KernelConfigRecord :=
  ⟨kernel.harness, env_to_text kernel.env kernel.env_text⟩

/-- The change of `upsert_kernel_config` to a configuration that is there. -/
def patch_kernel_config (env_vars : Text) (slot : KernelConfig) : KernelConfig :=
  let merged := merge_env slot.env slot.env_text env_vars
  { slot with env := merged.1, env_text := merged.2 }

section Kernels

variable (document : ConfigDocument)

/-- `get_kernel_config`. -/
def get_kernel_config (harness : HarnessName) : Option KernelConfigRecord :=
  (document.spec.kernel_configs.find? fun item => item.harness = harness).map kernel_to_record

/-- The document with other kernel configurations. -/
def with_kernel_configs (kernel_configs : List KernelConfig) : ConfigDocument :=
  { document with spec := { document.spec with kernel_configs := kernel_configs } }

/-- The edit of `upsert_kernel_config`. -/
def upsert_kernel_config (harness : HarnessName) (env_vars : Text) : Except StoreError ConfigDocument :=
  .ok (with_kernel_configs document ((patch_first (fun item => item.harness = harness)
    (patch_kernel_config env_vars) document.spec.kernel_configs).getD
      (document.spec.kernel_configs ++ [⟨harness, none, text_to_env env_vars⟩])))

/-- The edit of `delete_kernel_config`. -/
def delete_kernel_config (harness : HarnessName) : Except StoreError ConfigDocument :=
  .ok (with_kernel_configs document
    (document.spec.kernel_configs.filter fun item => item.harness ≠ harness))

end Kernels

/-! ## Skills -/

section SkillEdits

variable (document : ConfigDocument)

/-- The document with other skills. -/
def with_skills (skills : List Skill) : ConfigDocument :=
  { document with spec := { document.spec with skills := skills } }

/-- The edit of `upsert_skill`. -/
def upsert_skill (skill_id : Text) (files : TextMap) : Except StoreError ConfigDocument :=
  .ok (with_skills document ((patch_first (fun item => item.id = skill_id)
    (fun existing => { existing with files := files }) document.spec.skills).getD
      (document.spec.skills ++ [⟨skill_id, files⟩])))

/-- The edit of `delete_skill`. -/
def delete_skill (skill_id : Text) : Except StoreError ConfigDocument :=
  .ok (with_skills document (document.spec.skills.filter fun item => item.id ≠ skill_id))

end SkillEdits

/-! ## Secrets -/

section SecretEdits

variable (document : ConfigDocument)

/-- The document with other secret declarations. -/
def with_secrets (secrets : List SecretDeclaration) : ConfigDocument :=
  { document with spec := { document.spec with secrets := secrets } }

/-- The edit of `declare_secret`. -/
def push_declaration (declaration : SecretDeclaration) : ConfigDocument :=
  with_secrets document (document.spec.secrets ++ [declaration])

/-- The edit of `undeclare_secret`. -/
def retain_declarations (name : Text) : ConfigDocument :=
  with_secrets document (document.spec.secrets.filter fun item => item.name.as_str ≠ name)

end SecretEdits

/-! ## Edits -/

/-- The edits of the adapter. -/
inductive Edit where
  | insert_agent (record : AgentRecord)
  | update_agent (record : AgentRecord)
  | upsert_agent (record : AgentRecord)
  | add_agent_skill (agent_id skill_id : Text)
  | delete_agent (agent_id : Text)
  | insert_connection (record : ConnectionRecord)
  | update_connection (record : ConnectionRecord)
  | upsert_connection (record : ConnectionRecord)
  | delete_connection (connection_id : Text)
  | insert_gateway (record : GatewayRecord)
  | update_gateway (record : GatewayRecord)
  | upsert_gateway (record : GatewayRecord)
  | delete_gateway (gateway_id : Text)
  | upsert_kernel_config (harness : HarnessName) (env_vars : Text)
  | delete_kernel_config (harness : HarnessName)
  | upsert_skill (skill_id : Text) (files : TextMap)
  | delete_skill (skill_id : Text)

/-- The document after an edit. -/
def Edit.apply (edit : Edit) (document : ConfigDocument) : Except StoreError ConfigDocument :=
  match edit with
  | .insert_agent record => Config.insert_agent document record
  | .update_agent record => Config.update_agent document record
  | .upsert_agent record => Config.upsert_agent document record
  | .add_agent_skill agent_id skill_id => Config.add_agent_skill document agent_id skill_id
  | .delete_agent agent_id => Config.delete_agent document agent_id
  | .insert_connection record => Config.insert_connection document record
  | .update_connection record => Config.update_connection document record
  | .upsert_connection record => Config.upsert_connection document record
  | .delete_connection connection_id => Config.delete_connection document connection_id
  | .insert_gateway record => Config.insert_gateway document record
  | .update_gateway record => Config.update_gateway document record
  | .upsert_gateway record => Config.upsert_gateway document record
  | .delete_gateway gateway_id => Config.delete_gateway document gateway_id
  | .upsert_kernel_config harness env_vars => Config.upsert_kernel_config document harness env_vars
  | .delete_kernel_config harness => Config.delete_kernel_config document harness
  | .upsert_skill skill_id files => Config.upsert_skill document skill_id files
  | .delete_skill skill_id => Config.delete_skill document skill_id

/-! ## What an edit keeps -/

section PatchFirst

variable {α : Type} {found : α → Bool} {patch : α → α} {items items' : List α}

theorem patch_first_eq_none : patch_first found patch items = none ↔ ∀ item ∈ items, found item = false := by
  induction items with
  | nil => simp [patch_first]
  | cons item rest ih =>
    rw [patch_first, List.forall_mem_cons]
    cases hfound : found item with
    | true => simp
    | false => simp [ih]

/-- Something is changed where it is found first. -/
theorem patch_first_eq_some : patch_first found patch items = some items' ↔
    ∃ before item after, items = before ++ item :: after ∧ (∀ b ∈ before, found b = false)
      ∧ found item = true ∧ items' = before ++ patch item :: after := by
  induction items generalizing items' with
  | nil =>
    refine iff_of_false (by simp [patch_first]) ?_
    rintro ⟨before, item, after, hitems, -⟩
    simp at hitems
  | cons head rest ih =>
    rw [patch_first]
    cases hfound : found head with
    | true =>
      rw [if_pos rfl, Option.some.injEq]
      constructor
      · rintro rfl
        exact ⟨[], head, rest, rfl, by simp, hfound, rfl⟩
      · rintro ⟨before, item, after, hitems, hbefore, hitem, rfl⟩
        cases before with
        | nil =>
          obtain ⟨rfl, rfl⟩ := List.cons.inj hitems
          rfl
        | cons b before =>
          obtain ⟨rfl, -⟩ := List.cons.inj hitems
          have := hbefore head (List.mem_cons_self ..)
          rw [hfound] at this
          cases this
    | false =>
      rw [if_neg Bool.false_ne_true, Option.map_eq_some_iff]
      constructor
      · rintro ⟨rest', hrest, rfl⟩
        obtain ⟨before, item, after, rfl, hbefore, hitem, rfl⟩ := ih.1 hrest
        exact ⟨head :: before, item, after, rfl, List.forall_mem_cons.2 ⟨hfound, hbefore⟩, hitem, rfl⟩
      · rintro ⟨before, item, after, hitems, hbefore, hitem, rfl⟩
        cases before with
        | nil =>
          obtain ⟨rfl, -⟩ := List.cons.inj hitems
          rw [hfound] at hitem
          cases hitem
        | cons b before =>
          obtain ⟨rfl, rfl⟩ := List.cons.inj hitems
          exact ⟨_, ih.2 ⟨before, item, after, rfl, (List.forall_mem_cons.1 hbefore).2, hitem, rfl⟩, rfl⟩

theorem map_patch_first {κ : Type} {key : α → κ} (hkey : ∀ item, key (patch item) = key item)
    (h : patch_first found patch items = some items') : items'.map key = items.map key := by
  obtain ⟨before, item, after, rfl, -, -, rfl⟩ := patch_first_eq_some.1 h
  simp [hkey]

/-- Among items with different keys, the one with a key is changed, if there is one. -/
theorem patch_first_of_mem {κ : Type} [DecidableEq κ] {key : α → κ} (hkeyed : Keyed key items)
    {item : α} (hitem : item ∈ items) (hsame : patch item = item) :
    patch_first (fun other => key other = key item) patch items = some items := by
  obtain ⟨before, after, rfl⟩ := List.append_of_mem hitem
  refine patch_first_eq_some.2 ⟨before, item, after, rfl, fun b hb => ?_, by simp, by rw [hsame]⟩
  rw [decide_eq_false_iff_not]
  intro heq
  have hnodup := hkeyed
  unfold Keyed at hnodup
  rw [List.map_append, List.map_cons] at hnodup
  exact (List.nodup_append.1 hnodup).2.2 (key b) (List.mem_map.2 ⟨b, hb, rfl⟩) (key item)
    (List.mem_cons_self ..) heq

end PatchFirst

theorem find_of_mem {α κ : Type} [DecidableEq κ] {key : α → κ} {items : List α}
    (hkeyed : Keyed key items) {item : α} (hitem : item ∈ items) :
    (items.find? fun other => key other = key item) = some item :=
  (find_key_eq_some hkeyed).2 ⟨hitem, rfl⟩

/-! ## Records that are put back -/

theorem merge_env_same (env : Option ValueMap) (env_text : Option Text) :
    merge_env env env_text (env_to_text env env_text) = (env, env_text) := if_pos rfl

theorem merge_required_value_same (value : ConfigValue Text) :
    merge_required_value value (literal_or_empty value) = value := by
  cases value with
  | Literal literal => rfl
  | Secret name => rfl

theorem patch_agent_same (agent : Agent) : patch_agent (agent_to_record agent) agent = agent := by
  obtain ⟨id, name, harness, connection, cli, system_prompt, skills, env, env_text⟩ := agent
  unfold patch_agent agent_to_record
  simp only [merge_env_same, merge_required_value_same, Option.map_map]
  cases cli <;> rfl

theorem patch_gateway_same (runtime : GatewayRuntime) (gateway : Gateway) :
    patch_gateway (gateway_to_record runtime gateway) gateway = gateway := by
  obtain ⟨id, name, gateway_type, agent, enabled, env, env_text, secrets⟩ := gateway
  unfold patch_gateway gateway_to_record merge_gateway_secrets
  simp only [merge_env_same, if_pos]

theorem patch_kernel_config_same (kernel : KernelConfig) :
    patch_kernel_config (kernel_to_record kernel).env_vars kernel = kernel := by
  obtain ⟨harness, env, env_text⟩ := kernel
  unfold patch_kernel_config kernel_to_record
  simp only [merge_env_same]

theorem patch_connection_same (connection : Connection) :
    patch_connection (connection_to_record connection) connection
      = { connection with api_key :=
            if connection.api_key = some (.Literal []) then none else connection.api_key } := by
  obtain ⟨id, name, url, api_flavor, api_key⟩ := connection
  unfold patch_connection connection_to_record connection_api_key_value
  simp only [merge_required_value_same]
  congr 1
  cases api_key with
  | none => simp
  | some value =>
    cases value with
    | Secret secret => simp [ConfigValue.secret_name]
    | Literal literal =>
      by_cases hempty : literal = []
      · simp [ConfigValue.secret_name, literal_or_empty, hempty]
      · simp [ConfigValue.secret_name, literal_or_empty, hempty]

/-- **A record that is put back unchanged** leaves the document as it is, in each of its
resources; a connection's leaves it typed-equal exactly if its API key is not the empty
text. -/
theorem record_round_trip (document : ConfigDocument) (hunique : document.spec.Unique) :
    (∀ agent ∈ document.spec.agents, ∃ record, get_agent document agent.id = some record
        ∧ update_agent document record = .ok document)
      ∧ (∀ gateway ∈ document.spec.gateways, ∀ runtime_of, ∃ record,
          get_gateway document runtime_of gateway.id = some record
            ∧ update_gateway document record = .ok document)
      ∧ (∀ kernel ∈ document.spec.kernel_configs, ∃ record,
          get_kernel_config document kernel.harness = some record
            ∧ upsert_kernel_config document record.harness record.env_vars = .ok document)
      ∧ ∀ connection ∈ document.spec.connections, ∃ record next,
          get_connection document connection.id = some record
            ∧ update_connection document record = .ok next
            ∧ (typed_equal next document = true ↔ connection.api_key ≠ some (.Literal [])) := by
  refine ⟨fun agent hagent => ?_, fun gateway hgateway runtime_of => ?_, fun kernel hkernel => ?_,
    fun connection hconnection => ?_⟩
  · have hfind : (document.spec.agents.find? fun item => item.id = agent.id) = some agent :=
      find_of_mem hunique.agents hagent
    have hpatch : patch_first (fun item => item.id = (agent_to_record agent).agent_id)
        (patch_agent (agent_to_record agent)) document.spec.agents = some document.spec.agents :=
      patch_first_of_mem hunique.agents hagent (patch_agent_same agent)
    refine ⟨agent_to_record agent, ?_, ?_⟩
    · rw [get_agent, hfind]
      rfl
    · rw [update_agent, hpatch]
      rfl
  · have hfind : (document.spec.gateways.find? fun item => item.id = gateway.id) = some gateway :=
      find_of_mem hunique.gateways hgateway
    have hpatch : patch_first
        (fun item => item.id = (gateway_to_record (runtime_of gateway.id) gateway).gateway_id)
        (patch_gateway (gateway_to_record (runtime_of gateway.id) gateway)) document.spec.gateways
          = some document.spec.gateways :=
      patch_first_of_mem hunique.gateways hgateway (patch_gateway_same _ gateway)
    refine ⟨gateway_to_record (runtime_of gateway.id) gateway, ?_, ?_⟩
    · rw [get_gateway, hfind]
      rfl
    · rw [update_gateway, hpatch]
      rfl
  · have hkeyed : Keyed KernelConfig.harness document.spec.kernel_configs := by
      have hids := hunique.kernel_configs
      unfold Keyed at hids ⊢
      refine List.Nodup.of_map HarnessName.as_str ?_
      rwa [List.map_map]
    have hfind : (document.spec.kernel_configs.find? fun item => item.harness = kernel.harness)
        = some kernel := find_of_mem hkeyed hkernel
    have hpatch : patch_first (fun item => item.harness = (kernel_to_record kernel).harness)
        (patch_kernel_config (kernel_to_record kernel).env_vars) document.spec.kernel_configs
          = some document.spec.kernel_configs :=
      patch_first_of_mem hkeyed hkernel (patch_kernel_config_same kernel)
    refine ⟨kernel_to_record kernel, ?_, ?_⟩
    · rw [get_kernel_config, hfind]
      rfl
    · rw [upsert_kernel_config, hpatch]
      rfl
  · have hfind : (document.spec.connections.find? fun item => item.id = connection.id) = some connection :=
      find_of_mem hunique.connections hconnection
    cases hpatch : patch_first (fun item => item.id = (connection_to_record connection).connection_id)
        (patch_connection (connection_to_record connection)) document.spec.connections with
    | none =>
      have := patch_first_eq_none.1 hpatch connection hconnection
      simp [connection_to_record] at this
    | some connections =>
      refine ⟨connection_to_record connection, with_connections document connections, ?_, ?_, ?_⟩
      · rw [get_connection, hfind]
        rfl
      · rw [update_connection, hpatch]
      · obtain ⟨before, item, after, hitems, -, hfound, rfl⟩ := patch_first_eq_some.1 hpatch
        have hmem : item ∈ document.spec.connections := by
          rw [hitems]
          exact List.mem_append_right _ (List.mem_cons_self ..)
        obtain rfl : item = connection :=
          hunique.connections.eq_of_key_eq hmem hconnection (of_decide_eq_true hfound)
        have hpatched := patch_connection_same item
        by_cases hempty : item.api_key = some (.Literal [])
        · refine iff_of_false (fun hequal => ?_) (not_not.2 hempty)
          have hnext : (with_connections document (before ++ patch_connection
              (connection_to_record item) item :: after)).spec.Unique :=
            { hunique with
              connections := by
                have hid : ∀ other : Connection,
                    Connection.id (patch_connection (connection_to_record item) other) = other.id :=
                  fun _ => rfl
                have hkeys := map_patch_first hid hpatch
                unfold Keyed
                exact hkeys ▸ hunique.connections }
          have hsame := ((typed_equal_iff hnext).1 hequal).2.connections
          have hmem' : patch_connection (connection_to_record item) item ∈ document.spec.connections :=
            hsame.subset (List.mem_append_right _ (List.mem_cons_self ..))
          have heq := hunique.connections.eq_of_key_eq hmem' hmem rfl
          rw [hpatched, if_pos hempty] at heq
          rw [← heq] at hempty
          cases hempty
        · refine iff_of_true ?_ hempty
          rw [if_neg hempty] at hpatched
          have hdocument : with_connections document (before ++ patch_connection
              (connection_to_record item) item :: after) = document := by
            rw [hpatched, ← hitems]
            rfl
          rw [hdocument]
          exact decide_eq_true rfl

/-! ## An API key that is the empty text -/

/-- A document with one resource of each kind whose record is read. -/
def one_of_each (api_key : Option (ConfigValue Text)) : ConfigDocument where
  spec :=
    { kernel_configs := [⟨.Echo, none, none⟩]
      connections := [{ id := "main".toList, name := "Main".toList, url := .Literal [],
                        api_flavor := .Responses, api_key := api_key }]
      agents := [{ id := "main".toList, name := "Main".toList, harness := .Echo, connection := none,
                   cli := none, system_prompt := .Literal [], skills := [], env := none,
                   env_text := none }]
      gateways := [{ id := "echo".toList, name := "Echo".toList, gateway_type := .Echo,
                     agent := "main".toList, enabled := true, env := none, env_text := none,
                     secrets := ∅ }] }

theorem record_round_trip_one_of_each :
    ∃ record next, get_connection (one_of_each none) "main".toList = some record
      ∧ update_connection (one_of_each none) record = .ok next
      ∧ typed_equal next (one_of_each none) = true := by
  have hunique : (one_of_each none).spec.Unique := (check_duplicate_ids_eq_ok _).1 (by decide)
  obtain ⟨record, next, hget, hupdate, hequal⟩ :=
    (record_round_trip (one_of_each none) hunique).2.2.2 _ (List.mem_cons_self ..)
  exact ⟨record, next, hget, hupdate, hequal.2 (nomatch ·)⟩

/-- **An API key that is the empty text is lost** when the connection's record is put back. -/
theorem empty_api_key_is_lost :
    let document := one_of_each (some (.Literal []))
    document.spec.Unique
      ∧ ∃ record next, get_connection document "main".toList = some record
        ∧ update_connection document record = .ok next
        ∧ next.spec.connections.map (·.api_key) = [none]
        ∧ typed_equal next document = false :=
  ⟨(check_duplicate_ids_eq_ok _).1 (by decide), _, _, rfl, rfl, rfl, by decide⟩

end AgentSpace.Config
