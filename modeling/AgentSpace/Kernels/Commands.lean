/-
How the four kernels start their agents: the arguments, the environment and the directory of
the process, and what goes wrong before there is one (`Launch`). `create_subprocess_exec` raises
`ValueError` if an argument cannot be handed to the system.
-/
import AgentSpace.Acp.ClientRequests
import AgentSpace.Kernels.Events

set_option autoImplicit false

namespace AgentSpace.Kernels

open Acp (SpawnResult fs_encodable set_env lines_with_ends spawnable)
open PyText
open Telemetry (Str str)
open Telemetry.Otel (encode_utf8 has_surrogate)

variable {F : Type}

/-! ## Surroundings -/

/-- The two pipes of a process. -/
inductive Stream where
  | stdout
  | stderr

/-- What a turn meets in the world outside. -/
structure Surroundings where
  /-- `os.environ`. -/
  environ : List (Str × Str)
  /-- `uuid.uuid4()`, as the kernel writes it. -/
  fresh_id : Str
  /-- The `OSError` of `_ensure_directory`, for a path that can be handed to the system. -/
  mkdir : Option Str
  /-- The exception of a path that cannot be. -/
  value_error : Str
  /-- `prepare_workspace_artifacts`: the name of the agent, or the text of its `OSError` or
  `ValueError`. -/
  artifacts : Except Str (Option Str)
  /-- The `OSError` of writing the provider configuration, and of writing the prompt. -/
  config_written : Option Str
  prompt_written : Option Str
  /-- The prompt can be read back. -/
  prompt_readable : Bool
  spawn : SpawnResult
  /-- The lines of both pipes, in the order in which they are read. -/
  lines : List (Stream × List UInt8)
  returncode : ℤ

/-- What there is before a process is spawned. -/
inductive Launch where
  | ready (argv : List Str) (environment : List (Str × Str)) (cwd : Str)
  /-- An error that is reported. -/
  | failed (message : Str)
  | raised

/-! ## Texts -/

/-- `text.splitlines()`. -/
def splitlines (text : Str) : List Str := (lines_with_ends text).map fun line => line.rdropWhile is_line_end

/-- The parts of a text that are not empty. -/
def nonempty (parts : List Str) : List Str := parts.filter fun part => !part.isEmpty

/-- `[segment for segment in raw.split(":") if segment]`. -/
def colon_parts (raw : Str) : List Str := nonempty (raw.splitOn (Fin.ofNat _ 58))

/-- `_split_paths`. -/
def split_paths (raw : Str) : List Str :=
  let parts := nonempty (raw.splitOnP fun c => c == newline || c == Fin.ofNat _ 59)
  if parts.length ≠ 1 || !raw.contains (Fin.ofNat _ 58) then parts
  else if (colon_parts raw).all fun segment => (str "/").isPrefixOf segment then colon_parts raw
  else parts

/-- `cmd.extend([option, value])`, if there is a value. -/
def option_of (option : String) (value : Option Str) : List Str :=
  match value with
  | some value => [str option, value]
  | none => []

/-- `cmd.extend([option, path])` for each path. -/
def options_of (option : String) (paths : List Str) : List Str :=
  paths.flatMap fun path => [str option, path]

/-- `value = config.env.get(key); if value: env[key] = value`, for each key. -/
def forward (config : KernelConfig) (keys : List String) (env : List (Str × Str)) : List (Str × Str) :=
  keys.foldl (fun env key => match config.env_text key with
    | some value => set_env (str key) value env
    | none => env) env

/-- `self._config.env.get(name, DEFAULT_WORKSPACE_DIR)`. -/
def workspace_dir (config : KernelConfig) (name : String) : Str :=
  (config.env_get name).getD (str "/workspace")

/-- The session that is taken up. -/
def resume_session (config : KernelConfig) (name : String) : Option Str :=
  or_else (or_else config.session_id (config.env_get name)) none

/-- `_ensure_directory`: the text of its exception. -/
def ensure_directory (around : Surroundings) (path : Str) : Option Str :=
  if fs_encodable path then around.mkdir else some around.value_error

/-! ## Copilot -/

namespace Copilot

/-- `CopilotLaunchConfig`. -/
structure LaunchConfig where
  session_id : Str
  env : KernelConfig
  workspace_dir : Str

/-- `_launch_config`. -/
def launch_config (session_id : Str) (config : KernelConfig) : LaunchConfig where
  session_id := (or_else (or_else (some session_id) config.session_id)
    (config.env_get "COPILOT_SESSION_ID")).getD []
  env := config
  workspace_dir := Kernels.workspace_dir config "COPILOT_WORKSPACE_DIR"

/-- `_SAFE_SESSION_ID.fullmatch`. -/
def safe_session_id (text : Str) : Bool :=
  let alphanumeric (c : Fin 0x110000) : Bool :=
    (97 ≤ c.val && c.val ≤ 122) || (48 ≤ c.val && c.val ≤ 57)
  text.length ≤ 64 && text.head?.any alphanumeric && text.getLast?.any alphanumeric
    && text.all fun c => alphanumeric c || c.val == 45

/-- `agent_profile_name`; `none` is a `UnicodeEncodeError`. -/
def agent_profile_name (py : Python F) (session_id : Str) : Option Str :=
  if safe_session_id (py.lower session_id) then some (str "agentspace-" ++ py.lower session_id)
  else (encode_utf8 session_id).map fun data =>
    str "agentspace-" ++ (py.sha256_hexdigest data).take 24

/-- `_artifact_identity`. -/
def artifact_identity (config : LaunchConfig) : Str :=
  (or_else (config.env.env_get "AGENTSPACE_SESSION_ID") (some config.session_id)).getD []

/-- `_split_paths_env`. -/
def split_paths_env (config : KernelConfig) : List Str :=
  split_paths ((config.env_get "COPILOT_ADDITIONAL_PATHS").getD [])

/-- An argument that would name another session. -/
def reserved_arg (arg : Str) : Bool :=
  arg == str "-r" || [str "--resume", str "--session-id"].any fun reserved =>
    arg == reserved || (reserved ++ str "=").isPrefixOf arg

/-- `_extra_arg_tokens`; `none` is a `CopilotLaunchError`. -/
def extra_arg_tokens (config : KernelConfig) : Option (List Str) :=
  let args := nonempty (splitlines ((config.env_get "COPILOT_EXTRA_ARGS").getD []))
  if args.any reserved_arg then none else some args

/-- The name of the agent, from the artifacts or else from the prompt. -/
def agent_name (py : Python F) (config : LaunchConfig) (agent_name : Option Str) : Option (Option Str) :=
  if agent_name.isNone && (config.env.env_text "KERNEL_SYSTEM_PROMPT").isSome then
    (agent_profile_name py (artifact_identity config)).map some
  else some agent_name

/-- `_append_shared_args`; `none` is a `ValueError`. -/
def shared_args (py : Python F) (config : LaunchConfig) (name : Option Str) : Option (List Str) :=
  if config.session_id.isEmpty || !py.is_uuid config.session_id then none
  else do
    let agent ← agent_name py config name
    let extra ← extra_arg_tokens config.env
    pure ([str "--session-id=" ++ config.session_id]
      ++ option_of "--model" (config.env.env_text "COPILOT_MODEL")
      ++ option_of "--effort" (config.env.env_text "COPILOT_REASONING_EFFORT")
      ++ option_of "--config-dir" (config.env.env_text "COPILOT_CONFIG_DIR")
      ++ (agent.map fun agent => str "--agent=" ++ agent).toList
      ++ options_of "--add-dir" (config.env.additional_paths ++ split_paths_env config.env)
      ++ extra
      ++ [str "--secret-env-vars=COPILOT_PROVIDER_API_KEY,COPILOT_PROVIDER_BEARER_TOKEN,CONNECTION_API_KEY"])

/-- `build_chat_argv`; `none` is a `ValueError`. -/
def build_chat_argv (py : Python F) (config : LaunchConfig) (prompt : Str) (name : Option Str) :
    Option (List Str) :=
  (shared_args py config name).map fun shared =>
    [str "copilot", str "-p", prompt, str "--output-format", str "json", str "--allow-all",
      str "--no-ask-user", str "--no-auto-update", str "--no-color", str "-s"] ++ shared

/-- `_provider_wire_api`; `none` is a `CopilotLaunchError`. -/
def provider_wire_api (api_flavor : Option Str) : Option Str :=
  if api_flavor = some (str "chat_completions") then some (str "completions")
  else if api_flavor = some (str "responses") then some (str "responses")
  else none

/-- The variables that are taken out first: those of telemetry and of providers. -/
def dropped (name : Str) : Bool :=
  (str "OTEL_").isPrefixOf name || (str "COPILOT_OTEL_").isPrefixOf name
    || [str "COPILOT_PROVIDER_TYPE", str "COPILOT_PROVIDER_BASE_URL", str "COPILOT_PROVIDER_API_KEY",
      str "COPILOT_PROVIDER_BEARER_TOKEN", str "COPILOT_PROVIDER_WIRE_API"].contains name

/-- `build_copilot_environment`; `none` is a `CopilotLaunchError`. -/
def build_copilot_environment (config : KernelConfig) (process_env : List (Str × Str)) :
    Option (List (Str × Str)) :=
  let environment := config.env.foldl (fun env entry => set_env entry.1 entry.2 env) process_env
  let environment := environment.filter fun entry => !dropped entry.1
  let connections := [str "CONNECTION_URL", str "CONNECTION_API_KEY", str "CONNECTION_API_FLAVOR"]
  let without (env : List (Str × Str)) := env.filter fun entry => !connections.contains entry.1
  match config.env_text "CONNECTION_URL" with
  | some connection_url =>
    (provider_wire_api (config.env_get "CONNECTION_API_FLAVOR")).map fun wire_api =>
      without (environment ++ [(str "COPILOT_PROVIDER_TYPE", str "openai"),
        (str "COPILOT_PROVIDER_BASE_URL", connection_url),
        (str "COPILOT_PROVIDER_API_KEY",
          (config.env_text "CONNECTION_API_KEY").getD (str "not-required")),
        (str "COPILOT_PROVIDER_WIRE_API", wire_api)])
  | none =>
    if (config.env_text "CONNECTION_API_KEY").isSome || (config.env_text "CONNECTION_API_FLAVOR").isSome then
      none
    else some (without environment)

/-- `build_chat_launch`; `none` is a `ValueError`. -/
def build_chat_launch (py : Python F) (around : Surroundings) (config : LaunchConfig) (message : Str)
    (name : Option Str) : Option Launch := do
  let argv ← build_chat_argv py config message name
  let environment ← build_copilot_environment config.env around.environ
  pure (.ready argv environment config.workspace_dir)

/-- `send`, as far as the process to spawn. -/
def launch (py : Python F) (around : Surroundings) (session_id : Str) (config : KernelConfig)
    (message : Str) : Launch :=
  let config := launch_config session_id config
  let failed (text : Str) := Launch.failed (str "failed to start copilot CLI: " ++ text)
  match ensure_directory around config.workspace_dir, around.artifacts with
  | some text, _ => failed text
  | none, .error text => failed text
  | none, .ok name => (build_chat_launch py around config message name).getD (failed around.value_error)

end Copilot

/-! ## OpenCode -/

namespace OpenCode

/-- The variables that have to be there, with their values. -/
def required (config : KernelConfig) : List (String × Option Str) :=
  [("CONNECTION_URL", or_else (config.env_get "CONNECTION_URL") (config.env_text "KERNEL_OPENCODE_BASE_URL")),
    ("CONNECTION_API_KEY",
      or_else (config.env_get "CONNECTION_API_KEY") (config.env_text "KERNEL_OPENCODE_API_KEY")),
    ("KERNEL_OPENCODE_MODEL_NAME", config.env_text "KERNEL_OPENCODE_MODEL_NAME")]

/-- The names of those that are not. -/
def missing (config : KernelConfig) : List Str :=
  ((required config).filter fun entry => entry.2.isNone).map fun entry => str entry.1

/-- The message of the `ValueError`. -/
def missing_message (names : List Str) : Str :=
  str "opencode kernel is missing required environment variable(s): " ++ (str ", ").intercalate names
    ++ str ". Assign a Connection with a URL and API key, and set KERNEL_OPENCODE_MODEL_NAME on the agent or kernel configuration."

/-- `KERNEL_SYSTEM_PROMPT`. -/
def prompt (config : KernelConfig) : Str := (config.env_get "KERNEL_SYSTEM_PROMPT").getD []

/-- `_write_provider_config` and `_write_custom_agent_prompt`: the error that is reported. -/
def write_files (around : Surroundings) (config : KernelConfig) : Option Str :=
  let failed (detail : Str) := str "failed to write opencode provider config: " ++ detail
  if !(missing config).isEmpty then some (missing_message (missing config))
  else match around.config_written, around.prompt_written with
    | some detail, _ => some (failed detail)
    | none, some detail => some (failed detail)
    | none, none => if has_surrogate (prompt config) then some around.value_error else none

/-- `_has_custom_agent_prompt`, behind `_write_custom_agent_prompt`. -/
def has_custom_agent_prompt (around : Surroundings) (config : KernelConfig) : Bool :=
  around.prompt_readable && !(strip (prompt config)).isEmpty

/-- The agent that is asked for, or the custom one. -/
def agent (around : Surroundings) (config : KernelConfig) : Option Str :=
  or_else (config.env_get "OPENCODE_AGENT")
    (if has_custom_agent_prompt around config then some (str "custom") else none)

/-- `_build_command`. -/
def build_command (around : Surroundings) (config : KernelConfig) (message : Str) : List Str :=
  [str "opencode", str "run", message, str "--format", str "json",
      str "--dangerously-skip-permissions", str "--thinking"]
    ++ option_of "--model" (config.env_text "OPENCODE_MODEL")
    ++ option_of "--variant" (config.env_text "OPENCODE_VARIANT")
    ++ option_of "--agent" (agent around config)
    ++ option_of "--session" (resume_session config "OPENCODE_SESSION_ID")
    ++ [str "--dir", workspace_dir config "OPENCODE_WORKSPACE_DIR"]
    ++ nonempty (splitlines ((config.env_get "OPENCODE_EXTRA_ARGS").getD []))

/-- `_build_env`. -/
def build_env (around : Surroundings) (config : KernelConfig) : List (Str × Str) :=
  forward config ["ANTHROPIC_API_KEY", "OPENAI_API_KEY", "OPENCODE_SERVER_PASSWORD"] around.environ

/-- `send`, as far as the process to spawn. -/
def launch (around : Surroundings) (config : KernelConfig) (message : Str) : Launch :=
  match write_files around config with
  | some text => .failed text
  | none => .ready (build_command around config message) (build_env around config)
      (workspace_dir config "OPENCODE_WORKSPACE_DIR")

end OpenCode

/-! ## Codex -/

namespace Codex

/-- The words before the options. -/
def subcommand (config : KernelConfig) (message : Str) : List Str :=
  match resume_session config "CODEX_SESSION_ID" with
  | some session => [str "codex", str "exec", str "resume", session, message, str "--json", str "--full-auto"]
  | none => [str "codex", str "exec", message, str "--json", str "--full-auto"]

/-- `_build_command`. -/
def build_command (config : KernelConfig) (message : Str) : List Str :=
  subcommand config message
    ++ option_of "--model" (config.env_text "CODEX_MODEL")
    ++ [str "-C", workspace_dir config "CODEX_WORKSPACE_DIR"]
    ++ options_of "--add-dir" config.additional_paths
    ++ options_of "--add-dir" (colon_parts ((config.env_get "CODEX_ADDITIONAL_PATHS").getD []))
    ++ nonempty (splitlines ((config.env_get "CODEX_EXTRA_ARGS").getD []))

/-- `_build_env`. -/
def build_env (around : Surroundings) (config : KernelConfig) : List (Str × Str) :=
  forward config ["OPENAI_API_KEY"] around.environ

/-- `send`, as far as the process to spawn. -/
def launch (around : Surroundings) (config : KernelConfig) (message : Str) : Launch :=
  .ready (build_command config message) (build_env around config)
    (workspace_dir config "CODEX_WORKSPACE_DIR")

end Codex

/-! ## Claude Code -/

namespace ClaudeCode

/-- `_build_tools_arg`. -/
def build_tools_arg (config : KernelConfig) : Str :=
  let allowed := str "Bash,Read,Edit,Write,Glob,Grep,TodoWrite,Skill,Task"
  match config.env_text "CLAUDE_CODE_ADDITIONAL_TOOLS" with
  | some additional_tools => allowed ++ str "," ++ additional_tools
  | none => allowed

/-- `_iter_extra_arg_tokens`. -/
def extra_arg_tokens (config : KernelConfig) : List Str :=
  nonempty ((splitlines ((config.env_get "CLAUDE_CODE_EXTRA_ARGS").getD [])).map strip)

/-- `_build_command`. -/
def build_command (config : KernelConfig) (message : Str) : List Str :=
  [str "claude", str "--print", str "--bare", str "--output-format", str "stream-json",
      str "--verbose", str "--tools", build_tools_arg config,
      str "--allow-dangerously-skip-permissions", str "--dangerously-skip-permissions"]
    ++ option_of "--effort" (config.env_text "CLAUDE_CODE_REASONING_EFFORT")
    ++ option_of "--resume" (resume_session config "CLAUDE_CODE_SESSION_ID")
    ++ options_of "--add-dir" (config.additional_paths
      ++ split_paths ((config.env_get "CLAUDE_CODE_ADDITIONAL_PATHS").getD []))
    ++ extra_arg_tokens config
    ++ [message]

/-- `_build_env`. -/
def build_env (around : Surroundings) (config : KernelConfig) : List (Str × Str) :=
  forward config ["ANTHROPIC_API_KEY", "ANTHROPIC_AUTH_TOKEN", "ANTHROPIC_BASE_URL", "ANTHROPIC_MODEL",
      "ANTHROPIC_DEFAULT_OPUS_MODEL", "ANTHROPIC_DEFAULT_SONNET_MODEL", "ANTHROPIC_DEFAULT_HAIKU_MODEL",
      "CLAUDE_CODE_REASONING_EFFORT", "CLAUDE_CODE_ADDITIONAL_TOOLS", "CLAUDE_CODE_ADDITIONAL_PATHS",
      "CLAUDE_CODE_EXTRA_ARGS", "CLAUDE_CODE_SESSION_ID", "CLAUDE_CODE_WORKSPACE_DIR"]
    (set_env (str "IS_SANDBOX") (str "1")
      (set_env (str "WORKSPACE_DIR") (workspace_dir config "CLAUDE_CODE_WORKSPACE_DIR") around.environ))

/-- `send`, as far as the process to spawn: the directory is made outside of any `try`. -/
def launch (around : Surroundings) (config : KernelConfig) (message : Str) : Launch :=
  let cwd := workspace_dir config "CLAUDE_CODE_WORKSPACE_DIR"
  match ensure_directory around cwd with
  | some _ => .raised
  | none => .ready (build_command config message) (build_env around config) cwd

end ClaudeCode

/-! ## Spawning -/

/-- What comes of `asyncio.create_subprocess_exec`. -/
inductive Spawned where
  | process
  | not_found
  | os_error (message : Str)
  | value_error

/-- The process can be asked for: its words, variables and directory can be handed to the
system. -/
def handable (argv : List Str) (environment : List (Str × Str)) (cwd : Str) : Bool :=
  spawnable cwd argv environment

/-- `asyncio.create_subprocess_exec`. -/
def create_subprocess_exec (around : Surroundings) (argv : List Str) (environment : List (Str × Str))
    (cwd : Str) : Spawned :=
  match around.spawn with
  | .no_resources message => .os_error message
  | result =>
    if !handable argv environment cwd then .value_error
    else match result with
      | .not_found => .not_found
      | .os_error message => .os_error message
      | _ => .process

end AgentSpace.Kernels
