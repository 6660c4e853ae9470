/-
How a configuration document is written and read: the `Serialize` and
`Deserialize` of `config/value.rs`, `config/document.rs` and of the standalone
manifests in `config/loader.rs`.

Every type of a document is `LawfulSerde`, which is where the round trip of a
whole document comes from.
-/
import AgentSpace.Serde
import AgentSpace.Config.Document

set_option autoImplicit false

namespace AgentSpace.Config

open Text Serde

/-! ## Names and values -/

instance : Serialize SecretName where
  to_value name := .String name.as_str

instance : Deserialize SecretName where
  from_value v := v.as_str.bind SecretName.new

instance : LawfulSerde SecretName where
  round_trip name := SecretName.new_as_str name
  unique name := .String name.as_str
  not_null name := by simp [to_value]

instance : Serialize HarnessName where
  to_value h := .String h.as_str

instance : Deserialize HarnessName where
  from_value v := (as_variant v).bind HarnessName.from_str

instance : LawfulSerde HarnessName where
  round_trip h := HarnessName.from_str_as_str h
  unique h := .String h.as_str
  not_null h := by simp [to_value]

instance : Serialize CliHarnessName where
  to_value h := .String h.as_str

instance : Deserialize CliHarnessName where
  from_value v := (as_variant v).bind CliHarnessName.from_str

instance : LawfulSerde CliHarnessName where
  round_trip h := CliHarnessName.from_str_as_str h
  unique h := .String h.as_str
  not_null h := by simp [to_value]

instance : Serialize GatewayType where
  to_value t := .String t.as_str

instance : Deserialize GatewayType where
  from_value v := (as_variant v).bind GatewayType.from_str

instance : LawfulSerde GatewayType where
  round_trip t := GatewayType.from_str_as_str t
  unique t := .String t.as_str
  not_null t := by simp [to_value]

instance : Serialize ConnectionApiFlavor where
  to_value f := .String f.as_str

instance : Deserialize ConnectionApiFlavor where
  from_value v := (as_variant v).bind ConnectionApiFlavor.from_str

instance : LawfulSerde ConnectionApiFlavor where
  round_trip f := ConnectionApiFlavor.from_str_as_str f
  unique f := .String f.as_str
  not_null f := by simp [to_value]

/-- The key of a secret reference. -/
def secret_ref : Value := .String "secretRef".toList

instance {α : Type} [Serialize α] : Serialize (ConfigValue α) where
  to_value
    | .Literal value => to_value value
    | .Secret name => .Mapping [(secret_ref, .String name.as_str)]

/-- A mapping with the key of a secret reference must have no other; anything else
is a literal. -/
instance {α : Type} [Deserialize α] : Deserialize (ConfigValue α) where
  from_value
    | .Mapping map =>
      match Mapping.get secret_ref map with
      | some secret_value =>
        if map.length ≠ 1 then none
        else (secret_value.as_str.bind SecretName.new).map .Secret
      | none => (from_value (.Mapping map)).map .Literal
    | value => (from_value value).map .Literal

instance : LawfulSerde (ConfigValue Text) where
  round_trip
    | .Literal _ => rfl
    | .Secret name => by
      show ((SecretName.new name.as_str).map ConfigValue.Secret : Option (ConfigValue Text)) = _
      rw [SecretName.new_as_str]
      rfl
  unique
    | .Literal value => .String value
    | .Secret name => .Mapping _ (by simp) (by simp [secret_ref, Value.Unique.String])
        (by simp [Value.Unique.String])
  not_null
    | .Literal value => by simp [to_value]
    | .Secret name => by simp [to_value]

/-! ## Resources -/

/-- The fields of a `SecretDeclaration`. -/
def SecretDeclaration.fields (item : SecretDeclaration) : Fields :=
  [("name", some (to_value item.name)), ("description", item.description.map to_value)]

instance : Serialize SecretDeclaration where
  to_value item := to_struct item.fields

/-- Reading them back. -/
def SecretDeclaration.read (field : String → Option Value) : Option SecretDeclaration := do
  let name ← required_field (field "name")
  let description ← optional_field (field "description")
  some { name, description }

instance : Deserialize SecretDeclaration where
  from_value v := (as_struct ["name", "description"] v).bind SecretDeclaration.read

instance : LawfulSerde SecretDeclaration :=
  lawful_struct _ SecretDeclaration.fields SecretDeclaration.read (fun _ => rfl) (fun _ => rfl)
    (fun _ => rfl) (by decide)
    (fun item => by simp [SecretDeclaration.read, SecretDeclaration.fields, List.lookup])
    (fun item => by simp [SecretDeclaration.fields])

/-- The fields of a `KernelConfig`. -/
def KernelConfig.fields (item : KernelConfig) : Fields :=
  [("harness", some (to_value item.harness)), ("env", item.env.map to_value),
   ("envText", item.env_text.map to_value)]

instance : Serialize KernelConfig where
  to_value item := to_struct item.fields

@[inherit_doc SecretDeclaration.read]
def KernelConfig.read (field : String → Option Value) : Option KernelConfig := do
  let harness ← required_field (field "harness")
  let env ← optional_field (field "env")
  let env_text ← optional_field (field "envText")
  some { harness, env, env_text }

instance : Deserialize KernelConfig where
  from_value v := (as_struct ["harness", "env", "envText"] v).bind KernelConfig.read

instance : LawfulSerde KernelConfig :=
  lawful_struct _ KernelConfig.fields KernelConfig.read (fun _ => rfl) (fun _ => rfl)
    (fun _ => rfl) (by decide)
    (fun item => by simp [KernelConfig.read, KernelConfig.fields, List.lookup])
    (fun item => by simp [KernelConfig.fields])

/-- The fields of a `Connection`. -/
def Connection.fields (item : Connection) : Fields :=
  [("id", some (to_value item.id)), ("name", some (to_value item.name)),
   ("url", some (to_value item.url)), ("apiFlavor", some (to_value item.api_flavor)),
   ("apiKey", item.api_key.map to_value)]

instance : Serialize Connection where
  to_value item := to_struct item.fields

@[inherit_doc SecretDeclaration.read]
def Connection.read (field : String → Option Value) : Option Connection := do
  let id ← required_field (field "id")
  let name ← required_field (field "name")
  let url ← required_field (field "url")
  let api_flavor ← required_field (field "apiFlavor")
  let api_key ← optional_field (field "apiKey")
  some { id, name, url, api_flavor, api_key }

instance : Deserialize Connection where
  from_value v := (as_struct ["id", "name", "url", "apiFlavor", "apiKey"] v).bind Connection.read

instance : LawfulSerde Connection :=
  lawful_struct _ Connection.fields Connection.read (fun _ => rfl) (fun _ => rfl)
    (fun _ => rfl) (by decide)
    (fun item => by simp [Connection.read, Connection.fields, List.lookup])
    (fun item => by simp [Connection.fields])

/-- The fields of a `Skill`. -/
def Skill.fields (item : Skill) : Fields :=
  [("id", some (to_value item.id)), ("files", some (to_value item.files))]

instance : Serialize Skill where
  to_value item := to_struct item.fields

@[inherit_doc SecretDeclaration.read]
def Skill.read (field : String → Option Value) : Option Skill := do
  let id ← required_field (field "id")
  let files ← required_field (field "files")
  some { id, files }

instance : Deserialize Skill where
  from_value v := (as_struct ["id", "files"] v).bind Skill.read

instance : LawfulSerde Skill :=
  lawful_struct _ Skill.fields Skill.read (fun _ => rfl) (fun _ => rfl)
    (fun _ => rfl) (by decide)
    (fun item => by simp [Skill.read, Skill.fields, List.lookup])
    (fun item => by simp [Skill.fields])

/-- The fields of an `AgentCliConfig`. -/
def AgentCliConfig.fields (item : AgentCliConfig) : Fields :=
  [("harness", some (to_value item.harness)), ("connection", item.connection.map to_value)]

instance : Serialize AgentCliConfig where
  to_value item := to_struct item.fields

@[inherit_doc SecretDeclaration.read]
def AgentCliConfig.read (field : String → Option Value) : Option AgentCliConfig := do
  let harness ← required_field (field "harness")
  let connection ← optional_field (field "connection")
  some { harness, connection }

instance : Deserialize AgentCliConfig where
  from_value v := (as_struct ["harness", "connection"] v).bind AgentCliConfig.read

instance : LawfulSerde AgentCliConfig :=
  lawful_struct _ AgentCliConfig.fields AgentCliConfig.read (fun _ => rfl) (fun _ => rfl)
    (fun _ => rfl) (by decide)
    (fun item => by simp [AgentCliConfig.read, AgentCliConfig.fields, List.lookup])
    (fun item => by simp [AgentCliConfig.fields])

/-- The fields of an `Agent`. -/
def Agent.fields (item : Agent) : Fields :=
  [("id", some (to_value item.id)), ("name", some (to_value item.name)),
   ("harness", some (to_value item.harness)), ("connection", item.connection.map to_value),
   ("cli", item.cli.map to_value), ("systemPrompt", some (to_value item.system_prompt)),
   ("skills", skip_empty item.skills), ("env", item.env.map to_value),
   ("envText", item.env_text.map to_value)]

instance : Serialize Agent where
  to_value item := to_struct item.fields

@[inherit_doc SecretDeclaration.read]
def Agent.read (field : String → Option Value) : Option Agent := do
  let id ← required_field (field "id")
  let name ← required_field (field "name")
  let harness ← required_field (field "harness")
  let connection ← optional_field (field "connection")
  let cli ← optional_field (field "cli")
  let system_prompt ← required_field (field "systemPrompt")
  let skills ← defaulted_field [] (field "skills")
  let env ← optional_field (field "env")
  let env_text ← optional_field (field "envText")
  some { id, name, harness, connection, cli, system_prompt, skills, env, env_text }

instance : Deserialize Agent where
  from_value v := (as_struct ["id", "name", "harness", "connection", "cli", "systemPrompt",
    "skills", "env", "envText"] v).bind Agent.read

instance : LawfulSerde Agent :=
  lawful_struct _ Agent.fields Agent.read (fun _ => rfl) (fun _ => rfl)
    (fun _ => rfl) (by decide)
    (fun item => by simp [Agent.read, Agent.fields, List.lookup])
    (fun item => by simp [Agent.fields])

/-- The fields of a `Gateway`. -/
def Gateway.fields (item : Gateway) : Fields :=
  [("id", some (to_value item.id)), ("name", some (to_value item.name)),
   ("type", some (to_value item.gateway_type)), ("agent", some (to_value item.agent)),
   ("enabled", some (to_value item.enabled)), ("env", item.env.map to_value),
   ("envText", item.env_text.map to_value), ("secrets", skip_empty_map item.secrets)]

instance : Serialize Gateway where
  to_value item := to_struct item.fields

@[inherit_doc SecretDeclaration.read]
def Gateway.read (field : String → Option Value) : Option Gateway := do
  let id ← required_field (field "id")
  let name ← required_field (field "name")
  let gateway_type ← required_field (field "type")
  let agent ← required_field (field "agent")
  let enabled ← required_field (field "enabled")
  let env ← optional_field (field "env")
  let env_text ← optional_field (field "envText")
  let secrets ← defaulted_field ∅ (field "secrets")
  some { id, name, gateway_type, agent, enabled, env, env_text, secrets }

instance : Deserialize Gateway where
  from_value v := (as_struct ["id", "name", "type", "agent", "enabled", "env", "envText",
    "secrets"] v).bind Gateway.read

instance : LawfulSerde Gateway :=
  lawful_struct _ Gateway.fields Gateway.read (fun _ => rfl) (fun _ => rfl)
    (fun _ => rfl) (by decide)
    (fun item => by simp [Gateway.read, Gateway.fields, List.lookup])
    (fun item => by simp [Gateway.fields])

/-! ## The whole document -/

/-- The fields of a `ConfigSpec`. -/
def ConfigSpec.fields (spec : ConfigSpec) : Fields :=
  [("secrets", skip_empty spec.secrets), ("kernelConfigs", skip_empty spec.kernel_configs),
   ("connections", skip_empty spec.connections), ("skills", skip_empty spec.skills),
   ("agents", skip_empty spec.agents), ("gateways", skip_empty spec.gateways)]

instance : Serialize ConfigSpec where
  to_value spec := to_struct spec.fields

@[inherit_doc SecretDeclaration.read]
def ConfigSpec.read (field : String → Option Value) : Option ConfigSpec := do
  let secrets ← defaulted_field [] (field "secrets")
  let kernel_configs ← defaulted_field [] (field "kernelConfigs")
  let connections ← defaulted_field [] (field "connections")
  let skills ← defaulted_field [] (field "skills")
  let agents ← defaulted_field [] (field "agents")
  let gateways ← defaulted_field [] (field "gateways")
  some { secrets, kernel_configs, connections, skills, agents, gateways }

instance : Deserialize ConfigSpec where
  from_value v := (as_struct ["secrets", "kernelConfigs", "connections", "skills", "agents",
    "gateways"] v).bind ConfigSpec.read

instance : LawfulSerde ConfigSpec :=
  lawful_struct _ ConfigSpec.fields ConfigSpec.read (fun _ => rfl) (fun _ => rfl)
    (fun _ => rfl) (by decide)
    (fun item => by simp [ConfigSpec.read, ConfigSpec.fields, List.lookup])
    (fun item => by simp [ConfigSpec.fields])

/-- `Metadata`. -/
structure Metadata where
  name : Text
  deriving DecidableEq

instance : Serialize Metadata where
  to_value metadata := to_struct [("name", some (to_value metadata.name))]

@[inherit_doc SecretDeclaration.read]
def Metadata.read (field : String → Option Value) : Option Metadata := do
  let name ← required_field (field "name")
  some { name }

instance : Deserialize Metadata where
  from_value v := (as_struct ["name"] v).bind Metadata.read

instance : LawfulSerde Metadata :=
  lawful_struct _ (fun metadata => [("name", some (to_value metadata.name))]) Metadata.read
    (fun _ => rfl) (fun _ => rfl) (fun _ => rfl) (by decide)
    (fun item => by simp [Metadata.read, List.lookup]) (fun item => by simp)

/-- `AggregateManifest`. -/
structure AggregateManifest where
  api_version : Text
  kind : Text
  metadata : Metadata
  spec : ConfigSpec
  deriving DecidableEq

/-- The fields of an `AggregateManifest`. -/
def AggregateManifest.fields (manifest : AggregateManifest) : Fields :=
  [("apiVersion", some (to_value manifest.api_version)), ("kind", some (to_value manifest.kind)),
   ("metadata", some (to_value manifest.metadata)), ("spec", some (to_value manifest.spec))]

instance : Serialize AggregateManifest where
  to_value manifest := to_struct manifest.fields

@[inherit_doc SecretDeclaration.read]
def AggregateManifest.read (field : String → Option Value) : Option AggregateManifest := do
  let api_version ← required_field (field "apiVersion")
  let kind ← required_field (field "kind")
  let metadata ← required_field (field "metadata")
  let spec ← defaulted_field {} (field "spec")
  some { api_version, kind, metadata, spec }

instance : Deserialize AggregateManifest where
  from_value v := (as_struct ["apiVersion", "kind", "metadata", "spec"] v).bind
    AggregateManifest.read

instance : LawfulSerde AggregateManifest :=
  lawful_struct _ AggregateManifest.fields AggregateManifest.read (fun _ => rfl) (fun _ => rfl)
    (fun _ => rfl) (by decide)
    (fun item => by simp [AggregateManifest.read, AggregateManifest.fields, List.lookup])
    (fun item => by simp [AggregateManifest.fields])

/-- `ConfigDocument::to_aggregate`. -/
def ConfigDocument.to_aggregate (document : ConfigDocument) : AggregateManifest :=
  ⟨API_VERSION, KIND_AGGREGATE, ⟨document.metadata_name⟩, document.spec⟩

/-! ## Standalone manifests -/

/-- `Standalone`; the version and the kind are checked to be texts and not kept. -/
structure Standalone (S : Type) where
  metadata : Metadata
  spec : S

instance {S : Type} [Deserialize S] : Deserialize (Standalone S) where
  from_value v := (as_struct ["apiVersion", "kind", "metadata", "spec"] v).bind fun field => do
    let _api_version : Text ← required_field (field "apiVersion")
    let _kind : Text ← required_field (field "kind")
    let metadata ← required_field (field "metadata")
    let spec ← required_field (field "spec")
    some { metadata, spec }

/-- `SecretDeclarationSpec`. -/
structure SecretDeclarationSpec where
  description : Option Text

instance : Deserialize SecretDeclarationSpec where
  from_value v := (as_struct ["description"] v).bind fun field => do
    let description ← optional_field (field "description")
    some { description }

/-- `EnvSpec`. -/
structure EnvSpec where
  env : Option ValueMap
  env_text : Option Text

instance : Deserialize EnvSpec where
  from_value v := (as_struct ["env", "envText"] v).bind fun field => do
    let env ← optional_field (field "env")
    let env_text ← optional_field (field "envText")
    some { env, env_text }

/-- `ConnectionSpec`. -/
structure ConnectionSpec where
  name : Text
  url : ConfigValue Text
  api_flavor : ConnectionApiFlavor
  api_key : Option (ConfigValue Text)

instance : Deserialize ConnectionSpec where
  from_value v := (as_struct ["name", "url", "apiFlavor", "apiKey"] v).bind fun field => do
    let name ← required_field (field "name")
    let url ← required_field (field "url")
    let api_flavor ← required_field (field "apiFlavor")
    let api_key ← optional_field (field "apiKey")
    some { name, url, api_flavor, api_key }

/-- `SkillSourceSpec`. -/
structure SkillSourceSpec where
  path : Text

instance : Deserialize SkillSourceSpec where
  from_value v := (as_struct ["path"] v).bind fun field => do
    let path ← required_field (field "path")
    some { path }

/-- `SkillSpec`. -/
structure SkillSpec where
  files : Option TextMap
  source : Option SkillSourceSpec

instance : Deserialize SkillSpec where
  from_value v := (as_struct ["files", "source"] v).bind fun field => do
    let files ← optional_field (field "files")
    let source ← optional_field (field "source")
    some { files, source }

/-- `AgentSpec`. -/
structure AgentSpec where
  name : Text
  harness : HarnessName
  connection : Option Text
  cli : Option AgentCliConfig
  system_prompt : ConfigValue Text
  skills : List Text
  env : Option ValueMap
  env_text : Option Text

instance : Deserialize AgentSpec where
  from_value v := (as_struct ["name", "harness", "connection", "cli", "systemPrompt", "skills",
      "env", "envText"] v).bind fun field => do
    let name ← required_field (field "name")
    let harness ← required_field (field "harness")
    let connection ← optional_field (field "connection")
    let cli ← optional_field (field "cli")
    let system_prompt ← required_field (field "systemPrompt")
    let skills ← defaulted_field [] (field "skills")
    let env ← optional_field (field "env")
    let env_text ← optional_field (field "envText")
    some { name, harness, connection, cli, system_prompt, skills, env, env_text }

/-- `GatewaySpec`. -/
structure GatewaySpec where
  name : Text
  gateway_type : GatewayType
  agent : Text
  enabled : Bool
  env : Option ValueMap
  env_text : Option Text
  secrets : ValueMap

instance : Deserialize GatewaySpec where
  from_value v := (as_struct ["name", "type", "agent", "enabled", "env", "envText",
      "secrets"] v).bind fun field => do
    let name ← required_field (field "name")
    let gateway_type ← required_field (field "type")
    let agent ← required_field (field "agent")
    let enabled ← required_field (field "enabled")
    let env ← optional_field (field "env")
    let env_text ← optional_field (field "envText")
    let secrets ← defaulted_field ∅ (field "secrets")
    some { name, gateway_type, agent, enabled, env, env_text, secrets }

end AgentSpace.Config
