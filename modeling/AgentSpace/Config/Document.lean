/-
The configuration document: `config/value.rs` and `config/document.rs`, with the
names of `models.rs` they use.

A document is the desired state of an installation, each kind of resource a list keyed
by an identity. A value that may be kept out of it is either a literal or a reference to
a declared secret. `BTreeMap` is `Std.ExtTreeMap`.
-/
import AgentSpace.Bytes

set_option autoImplicit false

namespace AgentSpace.Config

open Text

/-! ## Names -/

/-- `SecretName::is_valid`: `[A-Z][A-Z0-9_]*`. -/
def is_valid_secret_name : Text → Bool
  | [] => false
  | first :: rest => first.isUpper && rest.all fun c => c.isUpper || c.isDigit || c == '_'

/-- `SecretName`. -/
structure SecretName where
  as_str : Text
  valid : is_valid_secret_name as_str = true
  deriving DecidableEq

/-- `SecretName::new`. -/
def SecretName.new (value : Text) : Option SecretName :=
  if h : is_valid_secret_name value = true then some ⟨value, h⟩ else none

@[simp] theorem SecretName.new_as_str (name : SecretName) : SecretName.new name.as_str = some name :=
  dif_pos name.valid

/-- `HarnessName`. -/
inductive HarnessName where
  | Acp
  | CopilotCli
  | Codex
  | Opencode
  | ClaudeCode
  | Echo
  deriving DecidableEq

/-- `HarnessName::as_str`, which is also the name serde gives a variant. -/
def HarnessName.as_str : HarnessName → Text
  | .Acp => "acp".toList
  | .CopilotCli => "copilot-cli".toList
  | .Codex => "codex".toList
  | .Opencode => "opencode".toList
  | .ClaudeCode => "claude-code".toList
  | .Echo => "echo".toList

/-- `HarnessName::from_str`. -/
def HarnessName.from_str (value : Text) : Option HarnessName :=
  [.Acp, .CopilotCli, .Codex, .Opencode, .ClaudeCode, .Echo].find? fun h => h.as_str = value

/-- `CliHarnessName`. -/
inductive CliHarnessName where
  | CopilotCli
  deriving DecidableEq

/-- `CliHarnessName::as_str`. -/
def CliHarnessName.as_str : CliHarnessName → Text
  | .CopilotCli => "copilot-cli".toList

/-- `CliHarnessName::from_str`. -/
def CliHarnessName.from_str (value : Text) : Option CliHarnessName :=
  [.CopilotCli].find? fun h => h.as_str = value

/-- `GatewayType`. -/
inductive GatewayType where
  | Echo
  | Discord
  deriving DecidableEq

/-- `GatewayType::as_str`. -/
def GatewayType.as_str : GatewayType → Text
  | .Echo => "echo".toList
  | .Discord => "discord".toList

/-- `GatewayType::from_str`. -/
def GatewayType.from_str (value : Text) : Option GatewayType :=
  [.Echo, .Discord].find? fun t => t.as_str = value

/-- `ConnectionApiFlavor`. -/
inductive ConnectionApiFlavor where
  | ChatCompletions
  | Responses
  deriving DecidableEq

/-- `ConnectionApiFlavor::as_str`. -/
def ConnectionApiFlavor.as_str : ConnectionApiFlavor → Text
  | .ChatCompletions => "chat_completions".toList
  | .Responses => "responses".toList

/-- `ConnectionApiFlavor::from_str`. -/
def ConnectionApiFlavor.from_str (value : Text) : Option ConnectionApiFlavor :=
  [.ChatCompletions, .Responses].find? fun f => f.as_str = value

@[simp] theorem HarnessName.from_str_as_str (h : HarnessName) : from_str h.as_str = some h := by
  cases h <;> decide

@[simp] theorem CliHarnessName.from_str_as_str (h : CliHarnessName) : from_str h.as_str = some h := by
  cases h
  decide

@[simp] theorem GatewayType.from_str_as_str (t : GatewayType) : from_str t.as_str = some t := by
  cases t <;> decide

@[simp] theorem ConnectionApiFlavor.from_str_as_str (f : ConnectionApiFlavor) :
    from_str f.as_str = some f := by
  cases f <;> decide

/-! ## Values -/

/-- `ConfigValue`. -/
inductive ConfigValue (α : Type) where
  | Literal (value : α)
  | Secret (name : SecretName)
  deriving DecidableEq

namespace ConfigValue

/-- `ConfigValue::as_literal`. -/
def as_literal {α : Type} : ConfigValue α → Option α
  | .Literal value => some value
  | .Secret _ => none

/-- `ConfigValue::secret_name`. -/
def secret_name {α : Type} : ConfigValue α → Option SecretName
  | .Literal _ => none
  | .Secret name => some name

/-- `ConfigValue::is_secret`. -/
def is_secret {α : Type} : ConfigValue α → Bool
  | .Literal _ => false
  | .Secret _ => true

end ConfigValue

/-- `BTreeMap<String, String>`. -/
abbrev TextMap := Std.ExtTreeMap Text Text compare

/-- `BTreeMap<String, ConfigValue<String>>`. -/
abbrev ValueMap := Std.ExtTreeMap Text (ConfigValue Text) compare

/-! ## Resources -/

/-- `SecretDeclaration`. -/
structure SecretDeclaration where
  name : SecretName
  description : Option Text
  deriving DecidableEq

/-- `KernelConfig`. -/
structure KernelConfig where
  harness : HarnessName
  env : Option ValueMap
  env_text : Option Text
  deriving DecidableEq

/-- `Connection`. -/
structure Connection where
  id : Text
  name : Text
  url : ConfigValue Text
  api_flavor : ConnectionApiFlavor
  api_key : Option (ConfigValue Text)
  deriving DecidableEq

/-- `Skill`. -/
structure Skill where
  id : Text
  files : TextMap
  deriving DecidableEq

/-- `AgentCliConfig`. -/
structure AgentCliConfig where
  harness : CliHarnessName
  connection : Option Text
  deriving DecidableEq

/-- `Agent`. -/
structure Agent where
  id : Text
  name : Text
  harness : HarnessName
  connection : Option Text
  cli : Option AgentCliConfig
  system_prompt : ConfigValue Text
  skills : List Text
  env : Option ValueMap
  env_text : Option Text
  deriving DecidableEq

/-- `Gateway`. -/
structure Gateway where
  id : Text
  name : Text
  gateway_type : GatewayType
  agent : Text
  enabled : Bool
  env : Option ValueMap
  env_text : Option Text
  secrets : ValueMap
  deriving DecidableEq

/-- `ConfigSpec`. -/
structure ConfigSpec where
  secrets : List SecretDeclaration := []
  kernel_configs : List KernelConfig := []
  connections : List Connection := []
  skills : List Skill := []
  agents : List Agent := []
  gateways : List Gateway := []
  deriving DecidableEq

/-- `DEFAULT_METADATA_NAME`. -/
def DEFAULT_METADATA_NAME : Text := "local".toList
/-- `API_VERSION`. -/
def API_VERSION : Text := "agentspace.dev/v1alpha1".toList
/-- `KIND_AGGREGATE`. -/
def KIND_AGGREGATE : Text := "AgentSpaceConfig".toList

/-- `ConfigDocument`, with its default. -/
structure ConfigDocument where
  metadata_name : Text := DEFAULT_METADATA_NAME
  spec : ConfigSpec := {}
  deriving DecidableEq

/-- `ConfigDocument::secret_declared`. -/
def ConfigDocument.secret_declared (document : ConfigDocument) (name : Text) : Bool :=
  document.spec.secrets.any fun item => item.name.as_str = name

/-- `env_to_text`. -/
def env_to_text (env : Option ValueMap) (env_text : Option Text) : Text :=
  match env_text with
  | some text => text
  | none =>
    match env with
    | none => []
    | some env => join ['\n'] (env.toList.filterMap fun p =>
      p.2.as_literal.map fun literal => p.1 ++ '=' :: literal)

/-! ## Errors -/

/-- `ValidationIssue`. -/
structure ValidationIssue where
  code : String
  detail : Text
  resource : Option Text := none
  field : Option Text := none
  deriving DecidableEq

/-- `ConfigError`. The detail of an error is missing where it is the message of a
library outside this repository. -/
inductive ConfigError where
  | Parse (detail : Option Text)
  | UnsupportedApiVersion (value : Text)
  | UnsupportedKind (value : Text)
  | DuplicateResource (kind : String) (id : Text)
  | UnsupportedBundle
  | Bundle (detail : Option Text)
  | Validation (issues : List ValidationIssue)
  | Serialize (detail : Option Text)
  | SecretDeclarationRemovalBlocked (names : List Text)
  | CanonicalDrift
  | GenerationConflict (expected : ℤ) (actual : Option ℤ)
  deriving DecidableEq

end AgentSpace.Config
