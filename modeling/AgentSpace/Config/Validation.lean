/-
The checks of a whole document: `client_service_rs/src/config/validate.rs`.

A document is valid if the list of issues stays empty. Mutations are checked without the
built-in skills: neither are skill references resolved then, nor do user skills collide
with built-in ones.
-/
import AgentSpace.Config.SkillValidation

set_option autoImplicit false

namespace AgentSpace.Config

open Text Lib

/-! ## Identifiers -/

/-- `validate_dash_id`. -/
def validate_dash_id (value : Text) (is_allowed : Char → Bool) : Bool :=
  value ≠ [] && (split '-' value).all fun segment => segment ≠ [] && segment.all is_allowed

/-- `validate_alpha_dash_id`. -/
def validate_alpha_dash_id (value : Text) : Bool := validate_dash_id value Char.isLower

/-- `validate_alphanumeric_dash_id`. -/
def validate_alphanumeric_dash_id (value : Text) : Bool :=
  validate_dash_id value fun c => c.isLower || c.isDigit

/-- `validate_agent_id`. -/
def validate_agent_id : Text → Bool := validate_alpha_dash_id

/-- `validate_connection_id`. -/
def validate_connection_id : Text → Bool := validate_alpha_dash_id

/-- `validate_gateway_id`. -/
def validate_gateway_id : Text → Bool := validate_alpha_dash_id

/-- `validate_skill_id`. -/
def validate_skill_id : Text → Bool := validate_alphanumeric_dash_id

/-! ## Secret references -/

/-- `SecretReference`. -/
structure SecretReference where
  name : SecretName
  field : Text

/-- `collect_value`. -/
def collect_value (field : Text) (value : ConfigValue Text) : List SecretReference :=
  match value with
  | .Secret name => [⟨name, field⟩]
  | .Literal _ => []

/-- The loop over a map of values. -/
def collect_map (name_base : Text) (map : ValueMap) : List SecretReference :=
  map.toList.flatMap fun entry => collect_value (name_base ++ "/".toList ++ entry.1) entry.2

/-- `collect_env`. -/
def collect_env (name_base : Text) (env : Option ValueMap) : List SecretReference :=
  match env with
  | none => []
  | some env => collect_map name_base env

/-- The references of a connection. -/
def connection_references (connection : Connection) : List SecretReference :=
  collect_value ("connections/".toList ++ connection.id ++ "/url".toList) connection.url
    ++ match connection.api_key with
      | some api_key =>
        collect_value ("connections/".toList ++ connection.id ++ "/apiKey".toList) api_key
      | none => []

/-- The references of a kernel configuration. -/
def kernel_references (kernel : KernelConfig) : List SecretReference :=
  collect_env ("kernelConfigs/".toList ++ kernel.harness.as_str ++ "/env".toList) kernel.env

/-- The references of an agent. -/
def agent_references (agent : Agent) : List SecretReference :=
  collect_value ("agents/".toList ++ agent.id ++ "/systemPrompt".toList) agent.system_prompt
    ++ collect_env ("agents/".toList ++ agent.id ++ "/env".toList) agent.env

/-- The references of a gateway. -/
def gateway_references (gateway : Gateway) : List SecretReference :=
  collect_env ("gateways/".toList ++ gateway.id ++ "/env".toList) gateway.env
    ++ collect_map ("gateways/".toList ++ gateway.id ++ "/secrets".toList) gateway.secrets

/-- `secret_references`. -/
def secret_references (document : ConfigDocument) : List SecretReference :=
  document.spec.connections.flatMap connection_references
    ++ document.spec.kernel_configs.flatMap kernel_references
    ++ document.spec.agents.flatMap agent_references
    ++ document.spec.gateways.flatMap gateway_references

/-! ## The checks -/

/-- An issue, if there is one. -/
def issue_if (condition : Prop) [Decidable condition] (issue : ValidationIssue) : List ValidationIssue :=
  if condition then [issue] else []

section Checks

variable (debug : Text → Text) (from_str : Text → Except Text SkillMetadata)
variable (document : ConfigDocument) (builtin_skill_ids : List Text)

/-- `ValidationIssue::new("invalid_metadata_name", ..)`. -/
def validate_metadata_name : List ValidationIssue :=
  issue_if (trim document.metadata_name = [])
    ⟨"invalid_metadata_name", "metadata.name must not be empty".toList, none,
      some "metadata/name".toList⟩

/-- `validate_identities`. -/
def validate_identities : List ValidationIssue :=
  (document.spec.connections.flatMap fun connection =>
    issue_if (¬validate_connection_id connection.id)
      ⟨"invalid_connection_id", "invalid connection id ".toList ++ debug connection.id,
        some ("connection/".toList ++ connection.id), none⟩)
  ++ document.spec.skills.flatMap fun skill =>
    issue_if (¬validate_skill_id skill.id)
      ⟨"invalid_skill_id", "invalid skill id ".toList ++ debug skill.id,
        some ("skill/".toList ++ skill.id), none⟩

/-- The loop of `validate_skills`. -/
def validate_skills_from (mount_paths : TextMap) : List Skill → List ValidationIssue
  | [] => []
  | skill :: rest =>
    let content := validate_skill_content debug from_str skill.id [] skill.files mount_paths
    (content.1.map fun issue =>
      { code := String.ofList issue.code, detail := issue.message,
        resource := some ("skill/".toList ++ skill.id), field := issue.field })
    ++ validate_skills_from content.2 rest

/-- `validate_skills`. -/
def validate_skills : List ValidationIssue :=
  validate_skills_from debug from_str ∅ document.spec.skills

/-- `validate_skill_builtin_collisions`. -/
def validate_skill_builtin_collisions : List ValidationIssue :=
  document.spec.skills.flatMap fun skill =>
    issue_if (skill.id ∈ builtin_skill_ids)
      ⟨"builtin_skill_collision", "user skill ".toList ++ debug skill.id
        ++ " collides with an installation-owned builtin skill".toList,
        some ("skill/".toList ++ skill.id), some ("skills/".toList ++ skill.id ++ "/id".toList)⟩

/-- `validate_env_exclusive`. -/
def validate_env_exclusive (resource : Text) (has_env has_env_text : Bool) : List ValidationIssue :=
  issue_if (has_env ∧ has_env_text)
    ⟨"env_conflict", resource ++ " sets both env and envText, which are mutually exclusive".toList,
      some resource, none⟩

/-- A connection that an agent references, in a field. -/
def validate_connection_reference (agent : Agent) (what : Text) (field : Text)
    (connection : Option Text) : List ValidationIssue :=
  match connection with
  | none => []
  | some connection =>
    issue_if (connection ∉ document.spec.connections.map (·.id))
      ⟨"unresolved_connection_reference", "agent ".toList ++ debug agent.id ++ what
        ++ " references unknown connection ".toList ++ debug connection,
        some ("agent/".toList ++ agent.id), some ("agents/".toList ++ agent.id ++ field)⟩

/-- `validate_agents`, for one agent. -/
def validate_agent (check_skill_refs : Bool) (agent : Agent) : List ValidationIssue :=
  issue_if (¬validate_agent_id agent.id)
    ⟨"invalid_agent_id", "invalid agent id ".toList ++ debug agent.id,
      some ("agent/".toList ++ agent.id), none⟩
  ++ validate_connection_reference debug document agent [] "/connection".toList agent.connection
  ++ validate_connection_reference debug document agent " CLI".toList "/cli/connection".toList
      (agent.cli.bind (·.connection))
  ++ (agent.skills.flatMap fun skill =>
    issue_if (check_skill_refs ∧ skill ∉ document.spec.skills.map (·.id) ∧ skill ∉ builtin_skill_ids)
      ⟨"unresolved_skill_reference", "agent ".toList ++ debug agent.id
        ++ " references unknown skill ".toList ++ debug skill,
        some ("agent/".toList ++ agent.id), some ("agents/".toList ++ agent.id ++ "/skills".toList)⟩)
  ++ validate_env_exclusive ("agent/".toList ++ agent.id) agent.env.isSome agent.env_text.isSome

/-- `validate_agents`. -/
def validate_agents (check_skill_refs : Bool) : List ValidationIssue :=
  document.spec.agents.flatMap (validate_agent debug document builtin_skill_ids check_skill_refs)

/-- `validate_kernels`. -/
def validate_kernels : List ValidationIssue :=
  document.spec.kernel_configs.flatMap fun kernel =>
    validate_env_exclusive ("kernelConfig/".toList ++ kernel.harness.as_str)
      kernel.env.isSome kernel.env_text.isSome

/-- `validate_gateways`, for one gateway. -/
def validate_gateway (gateway : Gateway) : List ValidationIssue :=
  issue_if (¬validate_gateway_id gateway.id)
    ⟨"invalid_gateway_id", "invalid gateway id ".toList ++ debug gateway.id,
      some ("gateway/".toList ++ gateway.id), none⟩
  ++ issue_if (gateway.agent ∉ document.spec.agents.map (·.id))
    ⟨"unresolved_agent_reference", "gateway ".toList ++ debug gateway.id
      ++ " references unknown agent ".toList ++ debug gateway.agent,
      some ("gateway/".toList ++ gateway.id),
      some ("gateways/".toList ++ gateway.id ++ "/agent".toList)⟩
  ++ validate_env_exclusive ("gateway/".toList ++ gateway.id) gateway.env.isSome
      gateway.env_text.isSome
  ++ match gateway.env with
    | none => []
    | some env => env.keys.flatMap fun key =>
      issue_if (key ∈ gateway.secrets)
        ⟨"duplicate_gateway_key", "gateway ".toList ++ debug gateway.id ++ " key ".toList
          ++ debug key ++ " appears in both env and secrets".toList,
          some ("gateway/".toList ++ gateway.id),
          some ("gateways/".toList ++ gateway.id ++ "/env/".toList ++ key)⟩

/-- `validate_gateways`. -/
def validate_gateways : List ValidationIssue :=
  document.spec.gateways.flatMap (validate_gateway debug document)

/-- `validate_secret_refs`. -/
def validate_secret_refs : List ValidationIssue :=
  (secret_references document).flatMap fun reference =>
    issue_if (reference.name ∉ document.spec.secrets.map (·.name))
      ⟨"unresolved_secret_reference", "field ".toList ++ reference.field
        ++ " references undeclared secret ".toList ++ reference.name.as_str,
        none, some reference.field⟩

/-- The issues of `validate_inner`. -/
def validation_issues (check_skill_refs : Bool) : List ValidationIssue :=
  validate_metadata_name document
    ++ validate_identities debug document
    ++ validate_skill_builtin_collisions debug document builtin_skill_ids
    ++ validate_skills debug from_str document
    ++ validate_agents debug document builtin_skill_ids check_skill_refs
    ++ validate_kernels document
    ++ validate_gateways debug document
    ++ validate_secret_refs document

/-- `validate_inner`. -/
def validate_inner (check_skill_refs : Bool) : Except ConfigError Unit :=
  let issues := validation_issues debug from_str document builtin_skill_ids check_skill_refs
  if issues.isEmpty then .ok () else .error (.Validation issues)

/-- `validate`. -/
def validate : Except ConfigError Unit :=
  validate_inner debug from_str document builtin_skill_ids true

/-- `validate_mutation`. -/
def validate_mutation : Except ConfigError Unit := validate_inner debug from_str document [] false

end Checks

end AgentSpace.Config
